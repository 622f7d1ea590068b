import PubSub.Json.Decode
import PubSub.Options

/-! # Client options as documents

The documents that stand for options, in JSON and in configuration files.
-/

namespace PubSub

open Json in
def RetryOptions.decode : Decoder RetryOptions := fun j => do
  let given ← fields ["initial_delay_ms", "max_delay_ms", "multiplier", "max_attempts"] j
  let default : RetryOptions := {}
  pure
    { initialDelayMs :=
        ← readField given "initial_delay_ms" default.initialDelayMs (asNat (Nat.pow 2 64))
      maxDelayMs := ← readField given "max_delay_ms" default.maxDelayMs (asNat (Nat.pow 2 64))
      multiplier := ← readField given "multiplier" default.multiplier asDouble
      maxAttempts := ← readField given "max_attempts" none (optional (asNat (Nat.pow 2 32))) }

open Json in
def TlsOptions.decode : Decoder TlsOptions := fun j => do
  let given ← fields ["trust_certificate", "client_certificate", "client_key", "verify_name"] j
  pure
    { trustCertificate := ← readField given "trust_certificate" none (optional asText)
      clientCertificate := ← readField given "client_certificate" none (optional asText)
      clientKey := ← readField given "client_key" none (optional asText)
      verifyName := ← readField given "verify_name" true asBool }

open Json in
def ClientOptions.decode : Decoder ClientOptions := fun j => do
  let given ← fields
    ["id", "service", "user", "password", "tls", "retry", "send_backpressure_threshold"] j
  let default : ClientOptions := {}
  pure
    { id := ← readField given "id" none (optional asText)
      service := ← readField given "service" default.service (listOf asText)
      user := ← readField given "user" none (optional asText)
      password := ← readField given "password" none (optional asText)
      tls := ← readField given "tls" none (optional TlsOptions.decode)
      retry := ← readField given "retry" {} RetryOptions.decode
      sendBackpressureThreshold :=
        ← readField given "send_backpressure_threshold" default.sendBackpressureThreshold
          (asNat (Nat.pow 2 64)) }

end PubSub
