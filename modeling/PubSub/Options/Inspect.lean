import PubSub.Number.Decimal
import PubSub.Options
import PubSub.Text.Inspected

/-! # Client options in structural form

The form shows every option, the password included.
-/

namespace PubSub

def RetryOptions.inspect (o : RetryOptions) : Inspected :=
  .record "RetryOptions" [
    ("initial_delay_ms", .nat o.initialDelayMs),
    ("max_delay_ms", .nat o.maxDelayMs),
    ("multiplier", .atom o.multiplier.explicitText),
    ("max_attempts", .option .nat o.maxAttempts)]

def TlsOptions.inspect (o : TlsOptions) : Inspected :=
  .record "TlsOptions" [
    ("trust_certificate", .option .text o.trustCertificate),
    ("client_certificate", .option .text o.clientCertificate),
    ("client_key", .option .text o.clientKey),
    ("verify_name", .bool o.verifyName)]

def ClientOptions.inspect (o : ClientOptions) : Inspected :=
  .record "ClientOptions" [
    ("id", .option .text o.id),
    ("service", .list (o.service.map .text)),
    ("user", .option .text o.user),
    ("password", .option .text o.password),
    ("tls", .option TlsOptions.inspect o.tls),
    ("retry", o.retry.inspect),
    ("send_backpressure_threshold", .nat o.sendBackpressureThreshold)]

end PubSub
