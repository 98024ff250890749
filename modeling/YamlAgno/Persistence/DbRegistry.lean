import YamlAgno.Config.SecretManager
import YamlAgno.Library.OrderedDict
import YamlAgno.Library.PyText
import Mathlib.Data.List.Infix

/-!
# The registry of databases

`persistence/registry.py`.  `build_db_registry` reads two sections of the
configuration, resolves the DSN of each entry, builds the database and registers it
under its ref.  The secret manager and the factories are given.
-/

namespace YamlAgno

open Fallible

/-- `InMemoryDbRegistry`: two dictionaries keyed by ref. -/
structure InMemoryDbRegistry (D V : Type) where
  dbs : List (String × D)
  vectorDbs : List (String × V)

/-- What the construction of a registry raises: `ValueError`, or an error from outside. -/
inductive RegistryError (X : Type) where
  | value (message : String)
  | raised (error : X)
deriving DecidableEq

namespace InMemoryDbRegistry

variable {F D V X : Type}

/-- An empty registry. -/
def empty : InMemoryDbRegistry D V :=
  ⟨[], []⟩

/-- `register_db`. -/
def registerDb
    (registry : InMemoryDbRegistry D V)
    (dbRef : String)
    (db : D) :
    InMemoryDbRegistry D V :=
  { registry with dbs := OrderedDict.set dbRef db registry.dbs }

/-- `register_vector_db`. -/
def registerVectorDb
    (registry : InMemoryDbRegistry D V)
    (dbRef : String)
    (vectorDb : V) :
    InMemoryDbRegistry D V :=
  { registry with vectorDbs := OrderedDict.set dbRef vectorDb registry.vectorDbs }

/-- `get`. -/
def get
    (B : PyBuiltins F)
    (registry : InMemoryDbRegistry D V)
    (dbRef : String) :
    Except (RegistryError X) D :=
  match registry.dbs.lookup dbRef with
  | some db => .ok db
  | none => .error (.value s!"Unknown db_ref: {B.repr (.str dbRef)} (not registered)")

/-- `get_vector_db`. -/
def getVectorDb
    (B : PyBuiltins F)
    (registry : InMemoryDbRegistry D V)
    (dbRef : String) :
    Except (RegistryError X) V :=
  match registry.vectorDbs.lookup dbRef with
  | some vectorDb => .ok vectorDb
  | none => .error (.value s!"Unknown vector_db ref: {B.repr (.str dbRef)} (not registered)")

end InMemoryDbRegistry

/-- The text that stands for the password in a DSN. -/
def passwordPlaceholder : List Char :=
  "\x7bpassword\x7d".toList

section Build

variable {F D V X : Type} (B : PyBuiltins F) (getSecret : String → Except X String)

/-- A field of an entry that must be a text, and not an empty one. -/
def requiredText
    (entry : PyValue)
    (field : String)
    (message : String) :
    Except (RegistryError X) String :=
  match entry.item field with
  | some (.str text) => if text = "" then .error (.value message) else .ok text
  | _ => .error (.value message)

/-- `_resolve_dsn`. -/
def resolveDsn
    (dbRef : String)
    (entry : PyValue) :
    Except (RegistryError X) String := do
  let dsn ← requiredText entry "dsn"
    s!"db_ref {B.repr (.str dbRef)} entry is missing required 'dsn' (string)"
  let passwordRef := (entry.item "password_ref").getD .none
  if passwordPlaceholder <:+: dsn.toList then
    match passwordRef with
    | .str passwordRef => do
        let password ← (getSecret passwordRef).mapError .raised
        return PyText.replace dsn passwordPlaceholder password.toList
    | _ =>
        .error (.value ("db_ref " ++ B.repr (.str dbRef) ++
          ": DSN contains '\x7bpassword\x7d' but no 'password_ref' is declared"))
  else
    match passwordRef with
    | .none => return dsn
    | _ =>
        .error (.value ("db_ref " ++ B.repr (.str dbRef) ++
          ": 'password_ref' declared but DSN has no '\x7b\x7bpassword\x7d\x7d' placeholder"))

/-- One turn of the loop over `databases`. -/
def registerDatabase
    (dbFactory : String → String → Except X D)
    (registry : InMemoryDbRegistry D V)
    (declared : String × PyValue) :
    Except (RegistryError X) (InMemoryDbRegistry D V) :=
  match declared.2 with
  | .dict entries => do
      let dsn ← resolveDsn B getSecret declared.1 (.dict entries)
      let db ← (dbFactory declared.1 dsn).mapError .raised
      return registry.registerDb declared.1 db
  | entry =>
      .error (.value
        s!"db_ref {B.repr (.str declared.1)} must be a mapping, got {B.typeName entry}")

/-- One turn of the loop over `vector_databases`. -/
def registerVectorDatabase
    (vectorDbFactory : String → String → String → Except X V)
    (registry : InMemoryDbRegistry D V)
    (declared : String × PyValue) :
    Except (RegistryError X) (InMemoryDbRegistry D V) :=
  match declared.2 with
  | .dict entries => do
      let dsn ← resolveDsn B getSecret declared.1 (.dict entries)
      let tableName ← requiredText (.dict entries) "table_name"
        s!"vector_db ref {B.repr (.str declared.1)} is missing required 'table_name' (string)"
      let vectorDb ← (vectorDbFactory declared.1 dsn tableName).mapError .raised
      return registry.registerVectorDb declared.1 vectorDb
  | entry =>
      .error (.value
        s!"vector_db ref {B.repr (.str declared.1)} must be a mapping, got {B.typeName entry}")

/-- `build_db_registry`. -/
def buildDbRegistry
    (dbFactory : String → String → Except X D)
    (vectorDbFactory : String → String → String → Except X V)
    (config : ConfigManager) :
    Except (RegistryError X) (InMemoryDbRegistry D V) := do
  let registry ← (config.getSection "databases").foldlM
    (registerDatabase B getSecret dbFactory) InMemoryDbRegistry.empty
  (config.getSection "vector_databases").foldlM
    (registerVectorDatabase B getSecret vectorDbFactory) registry

end Build

end YamlAgno
