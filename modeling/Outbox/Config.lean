import Outbox.Decimal.Reading
import Outbox.Decimal.Style
import Outbox.RetryPolicy
import Outbox.Text.Blank

/-! # Configuration

Eight variables, each optional. All of them are parsed before any range is checked, so a text that
does not parse is reported before a number out of range.
-/

namespace Outbox

structure Config where
  pollInterval : Duration
  batchSize : Nat
  sweepInterval : Duration
  retentionDays : Nat
  lease : Duration
  retryPolicy : RetryPolicy
  deriving BEq

/-- The value of a variable is not acceptable. -/
structure ConfigError where
  key : String
  value : String
  deriving DecidableEq, Repr

def ConfigError.message (e : ConfigError) : String :=
  "invalid value for " ++ e.key ++ ": '" ++ e.value ++ "'"

namespace Config

def default : Config where
  pollInterval := .ofMillis 2000
  batchSize := 100
  sweepInterval := .ofSeconds 3600
  retentionDays := 30
  lease := .ofSeconds 30
  retryPolicy := .immediate

/-- How long processed messages are kept. -/
def retention (c : Config) : Duration := .ofSeconds (c.retentionDays * 86400)

/-- The greatest number of 64 bits. -/
def most64 : Nat := 0xFFFFFFFFFFFFFFFF

def most32 : Nat := 0xFFFFFFFF

/-- The value of a variable, if it is set. Blanks around it do not count. -/
def parse {α : Type} (lookup : String → Option String) (key : String)
    (read : List Char → Option α) : Except ConfigError (Option α) :=
  match lookup key with
  | none => .ok none
  | some raw =>
      match read (Text.trim raw.toList) with
      | some a => .ok (some a)
      | none => .error ⟨key, raw⟩

/-- The policy for a base delay, a factor and a limit. The limit is at least the base. -/
def policyOf (baseMillis : Nat) (multiplier : Float) (maxMillis : Nat) : RetryPolicy :=
  if baseMillis = 0 then .immediate
  else .exponential (.ofMillis baseMillis) multiplier (.ofMillis (max maxMillis baseMillis))

def ofLookup (lookup : String → Option String) : Except ConfigError Config := do
  let pollMillis ← parse lookup "OUTBOX_POLL_INTERVAL_MS" (Decimal.natural? most64)
  let batchSize ← parse lookup "OUTBOX_BATCH_SIZE" (Decimal.natural? most64)
  let sweepSeconds ← parse lookup "OUTBOX_SWEEP_INTERVAL_SECS" (Decimal.natural? most64)
  let retentionDays ← parse lookup "OUTBOX_RETENTION_DAYS" (Decimal.natural? most32)
  let leaseSeconds ← parse lookup "OUTBOX_LEASE_SECS" (Decimal.natural? most64)
  let retryBase ← parse lookup "OUTBOX_RETRY_BASE_MS" (Decimal.natural? most64)
  let retryMultiplier ← parse lookup "OUTBOX_RETRY_MULTIPLIER" Decimal.float?
  let retryMax ← parse lookup "OUTBOX_RETRY_MAX_MS" (Decimal.natural? most64)
  if batchSize = some 0 then throw ⟨"OUTBOX_BATCH_SIZE", "0"⟩
  if retentionDays = some 0 then throw ⟨"OUTBOX_RETENTION_DAYS", "0"⟩
  let multiplier := retryMultiplier.getD 2.0
  if !multiplier.isFinite || multiplier < 1.0 then
    throw ⟨"OUTBOX_RETRY_MULTIPLIER", Decimal.Style.plain.text multiplier⟩
  return {
    pollInterval := (pollMillis.map Duration.ofMillis).getD default.pollInterval
    batchSize := batchSize.getD default.batchSize
    sweepInterval := (sweepSeconds.map Duration.ofSeconds).getD default.sweepInterval
    retentionDays := retentionDays.getD default.retentionDays
    lease := (leaseSeconds.map Duration.ofSeconds).getD default.lease
    retryPolicy := policyOf (retryBase.getD 0) multiplier (retryMax.getD 300000) }

end Config

end Outbox
