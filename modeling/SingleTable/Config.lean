import SingleTable.Backoff
import SingleTable.Decimal.Numeral

/-!
# Limits of a connection

The limits that a connection keeps to, with their defaults, and how the environment
overrides some of them.
-/

namespace SingleTable

/-- The limits that a connection keeps to. -/
structure Config where
  /-- The operations of one write transaction. -/
  maxTransactionItems : Nat := 100
  /-- The requests of one batch write. -/
  maxBatchWriteItems : Nat := 25
  /-- The keys of one batch read. -/
  maxBatchReadItems : Nat := 100
  /-- The requests that run at once. -/
  maxConcurrency : Nat := 5
  retry : RetryPolicy := {}
  /-- The items that a query or scan returns when the caller sets no limit. -/
  defaultQueryLimit : Nat := 3000
  deriving DecidableEq, Repr

namespace Config

def setting (environment : String → Option String) (name : String) (default : Nat) : Nat :=
  ((environment name).bind Decimal.readUnsigned64?).getD default

/-- The limits that an environment sets; the others keep their defaults. -/
def ofEnvironment (environment : String → Option String) : Config :=
  let defaults : Config := {}
  { defaults with
    maxTransactionItems := setting environment "DYNAMO_ENTITY_MAX_TRANSACTION_ITEMS"
      defaults.maxTransactionItems
    maxConcurrency := setting environment "DYNAMO_ENTITY_MAX_CONCURRENCY"
      defaults.maxConcurrency
    retry := { defaults.retry with
      maxRetries := setting environment "DYNAMO_ENTITY_MAX_RETRIES"
        defaults.retry.maxRetries }
    defaultQueryLimit := setting environment "DYNAMO_ENTITY_DEFAULT_QUERY_LIMIT"
      defaults.defaultQueryLimit }

def withMaxConcurrency (config : Config) (limit : Nat) : Config :=
  { config with maxConcurrency := max limit 1 }

end Config

/-! ## Settings of the service client -/

/-- How the client of the service is set up. -/
structure ClientSettings where
  /-- The address of the service, if not the one of the region. -/
  endpoint : Option String
  region : String
  retryMode : String := "Adaptive"
  maxAttempts : Nat := 3
  initialBackoff : Duration := .ofMilliseconds 1000
  connectTimeout : Duration := .ofMilliseconds 3000
  readTimeout : Duration := .ofMilliseconds 20000
  operationTimeout : Duration := .ofMilliseconds 60000
  deriving DecidableEq, Repr

/-- The settings for a profile.  The profile `localstack` talks to a service on this host. -/
def ClientSettings.ofProfile (profile : Option String) (region : String) : ClientSettings :=
  { endpoint := if profile = some "localstack" then some "http://127.0.0.1:4566" else none
    region }

end SingleTable
