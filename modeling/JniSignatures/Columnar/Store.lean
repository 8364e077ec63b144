import JniSignatures.Kind
import JniSignatures.Columnar.Uri
/-!
# Stores over a network

Some schemes name stores that are reached over a network. An address that comes from a path has no
host, so it names no bucket and no account of such a store, and no table can be had there.
`Store.refusal` tells why: the first reason found when the parameters of the address are checked, or
in the end that nothing is named.
-/

namespace JniSignatures.Columnar

/-- A store over a network. -/
inductive Store where
  | s3 | gcs | azure
  deriving DecidableEq

/-- Why an address does not lead to a table of a store. -/
inductive StoreFault where
  /-- There is a path but no bucket. -/
  | noBucket (store : Store)
  | unknownParameter (store : Store) (key : String)
  | notTruth (value : String)
  | connection (value : String)
  | retryLimit (value : String)
  | credentialKind (value : String)
  /-- A parameter cannot stand beside a kind of credentials. -/
  | credentialParameter (key value : String)
  | noClient
  /-- One of two parameters is there, the other is not. -/
  | halfClient
  | noAccount
  /-- The store as a whole is no table. -/
  | wholeStore
  /-- Nothing is named in the store. -/
  | nothingNamed
  deriving DecidableEq

namespace Store

/-- The store of a scheme. -/
def ofScheme? : String → Option Store
  | "s3" => some .s3
  | "gs" | "gcs" => some .gcs
  | "abfs" | "abfss" => some .azure
  | _ => none

/-- The name of a store in messages. -/
def name : Store → String
  | .s3 => "S3"
  | .gcs => "GCS"
  | .azure => "Azure Blob File System"

end Store

namespace StoreFault

def message : StoreFault → String
  | .noBucket store => "Missing bucket name in " ++ store.name ++ " URI"
  | .unknownParameter store key =>
    "Unexpected query parameter in " ++ store.name ++ " URI: '" ++ key ++ "'"
  | .notTruth value => "String is not a valid boolean value: '" ++ value ++ "'."
  | .connection value => "Invalid S3 connection scheme '" ++ value ++ "'"
  | .retryLimit value =>
    "retry_limit_seconds must be a positive floating point value: '" ++ value ++ "'"
  | .credentialKind value => "Unexpected credential_kind: '" ++ value ++ "'"
  | .credentialParameter key value =>
    key ++ " must not be specified with credential_kind=" ++ value
  | .noClient => "client_id must be specified"
  | .halfClient => "Both of tenant_id and client_secret must be specified"
  | .noAccount => "AzureOptions doesn't contain a valid account name"
  | .wholeStore => "Not a regular file: ''"
  | .nothingNamed => "[Errno 2] Path does not exist ''. Detail: [errno 2] No such file or directory"

def kind : StoreFault → Kind
  | .wholeStore => .system
  | .nothingNamed => .fileNotFound
  | _ => .table

end StoreFault

/-! ## Parameters -/

/-- What the value of a parameter must be. -/
inductive Demand where
  | any
  | truth
  /-- A number greater than zero. -/
  | positive
  /-- One of the kinds of credentials that can be asked for. -/
  | credential
  deriving DecidableEq

/-- Whether a text is a truth value. -/
def isTruth (value : String) : Bool :=
  value = "0" || value = "1" ||
    ["true", "false"].contains (String.ofList (value.toList.map Char.toLower))

/-- Whether a text starts with a number greater than zero. -/
def isPositive (value : String) : Bool :=
  let text := value.toList.dropWhile fun c => c == ' ' || ('\t' ≤ c && c ≤ '\r')
  let number := if text.head? = some '+' then text.drop 1 else text
  let digits := number.takeWhile fun c => Uri.isDigit c || c == '.'
  digits.any fun c => '1' ≤ c && c ≤ '9'

/-- The kinds of credentials that can be asked for. -/
def credentialKinds : List String :=
  ["default", "anonymous", "workload_identity", "environment", "cli"]

/-- Checks a value. -/
def Demand.check (value : String) : Demand → Except StoreFault Unit
  | .any => .ok ()
  | .truth => if isTruth value then .ok () else .error (.notTruth value)
  | .positive => if isPositive value then .ok () else .error (.retryLimit value)
  | .credential => if credentialKinds.contains value then .ok () else .error (.credentialKind value)

namespace Store

/-- The parameters that make a signature. -/
def signatureKeys : List String :=
  ["sv", "ss", "sr", "st", "se", "sp", "si", "sip", "spr", "skoid", "sktid", "srt", "skt", "ske",
    "skv", "sks", "saoid", "suoid", "scid", "sdd", "ses", "sig", "rscc", "rscd", "rsce", "rscl",
    "rsct"]

/-- The parameters that a store knows. -/
def demands : Store → List (String × Demand)
  | .s3 =>
    [("region", .any), ("scheme", .any), ("endpoint_override", .any), ("allow_delayed_open", .truth),
      ("allow_bucket_creation", .truth), ("allow_bucket_deletion", .truth),
      ("check_directory_existence_before_creation", .truth), ("tls_ca_file_path", .any),
      ("tls_ca_dir_path", .any), ("tls_verify_certificates", .truth), ("smart_defaults", .any)]
  | .gcs =>
    [("location", .any), ("scheme", .any), ("endpoint_override", .any),
      ("retry_limit_seconds", .positive), ("project_id", .any)]
  | .azure =>
    [("blob_storage_authority", .any), ("dfs_storage_authority", .any),
      ("credential_kind", .credential), ("tenant_id", .any), ("client_id", .any),
      ("client_secret", .any), ("enable_tls", .truth), ("background_writes", .truth)] ++
      signatureKeys.map fun key => (key, .any)

/-- Checks parameters in their order. -/
def checkParameters (store : Store) : List (String × String) → Except StoreFault Unit
  | [] => .ok ()
  | (key, value) :: rest => do
    match store.demands.lookup key with
    | some demand => demand.check value
    | none => .error (.unknownParameter store key)
    store.checkParameters rest

/-- The first parameter of every key, the last key first. -/
def firstOfKeys (parameters : List (String × String)) : List (String × String) :=
  parameters.foldl (fun kept parameter =>
    if (kept.lookup parameter.1).isSome then kept else parameter :: kept) []

/-- The value of the last parameter of a key, if it is not empty. -/
def value? (parameters : List (String × String)) (key : String) : Option String :=
  (parameters.reverse.lookup key).filter (· ≠ "")

/-- Checks that the parameters about a client fit each other. -/
def checkClient (parameters : List (String × String)) : Except StoreFault Unit :=
  let has (key : String) : Bool := (value? parameters key).isSome
  match value? parameters "credential_kind" with
  | some credential =>
    match ["tenant_id", "client_id", "client_secret"].find? has with
    | some key => .error (.credentialParameter key credential)
    | none => .ok ()
  | none =>
    if !has "client_id" then
      if has "tenant_id" || has "client_secret" then .error .noClient else .ok ()
    else if has "tenant_id" = has "client_secret" then .ok () else .error .halfClient

/-- Checks the parameters of an address. -/
def checkUri (store : Store) (uri : Uri) : Except StoreFault Unit :=
  match store with
  | .azure => do
    store.checkParameters uri.parameters
    checkClient uri.parameters
  | .gcs =>
    if uri.path.isEmpty then store.checkParameters (firstOfKeys uri.parameters)
    else .error (.noBucket store)
  | .s3 => do
    if !uri.path.isEmpty then .error (.noBucket store)
    store.checkParameters (firstOfKeys uri.parameters)
    match (firstOfKeys uri.parameters).lookup "scheme" with
    | some scheme => if scheme = "http" ∨ scheme = "https" then .ok () else .error (.connection scheme)
    | none => .ok ()

/-- Why there is nothing in a store for an address with good parameters. -/
def absence : Store → StoreFault
  | .s3 => .wholeStore
  | .gcs => .nothingNamed
  | .azure => .noAccount

/-- Why an address leads to no table of the store. -/
def refusal (store : Store) (uri : Uri) : StoreFault :=
  match store.checkUri uri with
  | .ok () => store.absence
  | .error fault => fault

end Store

end JniSignatures.Columnar
