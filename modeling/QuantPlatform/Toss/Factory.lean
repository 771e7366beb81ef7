import QuantPlatform.Toss.Errors
import QuantPlatform.Toss.Traffic

namespace QuantPlatform
namespace Toss

open QuantPlatform.Core Effects

/-- The settings the gateways are built from. -/
structure Settings where
  tossApiBaseUrl : String := "https://openapi.tossinvest.com"
  tossClientId : Option String := none
  tossClientSecret : Option String := none
  tossAccountSeq : Option String := none
  httpTimeoutSeconds : ℚ := 10
  httpMaxRetries : Nat := 3
  tossReadOnlyMode : Bool := true

/-- `TossOAuthClient(base_url, client_id, client_secret, timeout_seconds=, max_retries=)`. -/
def TossOAuthClient.create (baseUrl clientId clientSecret : String) (timeoutSeconds : ℚ)
    (maxRetries : Nat) : TossOAuthClient where
  clientId := clientId
  clientSecret := clientSecret
  http := ownHttpClient baseUrl timeoutSeconds maxRetries
  retry := { maxRetries }
  throttle := GroupThrottle.create fun _ => none

/-- `TossRestClient(base_url, oauth_client, account_seq=, read_only_mode=, …)`. -/
def TossRestClient.create (baseUrl : String) (oauth : TossOAuthClient)
    (accountSeq : Option String) (readOnlyMode : Bool) (timeoutSeconds : ℚ) (maxRetries : Nat) :
    Except Raised TossRestClient :=
  if readOnlyMode = false then
    .error {
      cls := .app .configError
      text := "TossRestClient refuses to start: toss_read_only_mode is False. " ++
        "Phase 02 ships no order-placing code at all - flip this flag " ++
        "only alongside a reviewed change that actually adds one." }
  else
    .ok {
      oauth, accountSeq
      http := ownHttpClient baseUrl timeoutSeconds maxRetries
      retry := { maxRetries }
      throttle := GroupThrottle.create fun _ => none }

/-- `build_toss_gateways(settings, capture_raw_payload=)`. -/
def buildTossGateways (settings : Settings) (captureRawPayload : Bool) :
    Except Raised TossGateways :=
  if settings.tossReadOnlyMode = false then
    .error {
      cls := .app .configError
      text := "toss_read_only_mode is False - refusing to build Toss gateways. " ++
        "Phase 02 ships no order-placing code; this flag exists so " ++
        "enabling write access is a deliberate, reviewed change." }
  else
    match settings.tossClientId, settings.tossClientSecret with
    | some clientId, some clientSecret => do
        let oauth := TossOAuthClient.create settings.tossApiBaseUrl clientId clientSecret
          settings.httpTimeoutSeconds settings.httpMaxRetries
        let client ← TossRestClient.create settings.tossApiBaseUrl oauth settings.tossAccountSeq
          settings.tossReadOnlyMode settings.httpTimeoutSeconds settings.httpMaxRetries
        return {
          marketData := { client, captureRawPayload }
          portfolio := { client, captureRawPayload } }
    | _, _ =>
        .error {
          cls := .app .configError
          text := "toss_client_id/toss_client_secret are not configured - set them " ++
            "in a local .env (see .env.example), never hardcode them." }

/-- The client that both adapters share. -/
def Settings.client (settings : Settings) (clientId clientSecret : String) : TossRestClient where
  oauth := TossOAuthClient.create settings.tossApiBaseUrl clientId clientSecret
    settings.httpTimeoutSeconds settings.httpMaxRetries
  accountSeq := settings.tossAccountSeq
  http := ownHttpClient settings.tossApiBaseUrl settings.httpTimeoutSeconds
    settings.httpMaxRetries
  retry := { maxRetries := settings.httpMaxRetries }
  throttle := GroupThrottle.create fun _ => none

def gatewaysOf (client : TossRestClient) (captureRawPayload : Bool) : TossGateways where
  marketData := { client, captureRawPayload }
  portfolio := { client, captureRawPayload }

/-- When something is built, and what. -/
theorem buildTossGateways_eq_ok_iff {settings : Settings} {captureRawPayload : Bool}
    {gateways : TossGateways} :
    buildTossGateways settings captureRawPayload = .ok gateways ↔
      settings.tossReadOnlyMode = true ∧ ∃ clientId clientSecret,
        settings.tossClientId = some clientId ∧ settings.tossClientSecret = some clientSecret ∧
          gateways = gatewaysOf (settings.client clientId clientSecret) captureRawPayload := by
  unfold buildTossGateways
  by_cases hmode : settings.tossReadOnlyMode = false
  · rw [if_pos hmode, hmode]
    constructor
    · intro h
      cases h
    · intro h
      cases h.1
  · rw [if_neg hmode]
    cases hid : settings.tossClientId with
    | none => simp
    | some clientId =>
      cases hsecret : settings.tossClientSecret with
      | none => simp
      | some clientSecret =>
        simp only [TossRestClient.create, hmode]
        constructor
        · intro h
          cases h
          exact ⟨trivial, clientId, clientSecret, rfl, rfl, rfl⟩
        · rintro ⟨_, _, _, hid', hsecret', rfl⟩
          cases hid'
          cases hsecret'
          rfl

structure AuthHealthCheckResult where
  ok : Bool
  checkedAt : Instant
  tokenExpiresAt : Option Instant
  deriving DecidableEq, Repr

/-- `check_auth_health(oauth_client)`.  The reading that dates the report is no event: only
the report shows it. -/
def checkAuthHealth (env : Env) (oauth : TossOAuthClient) : Action AuthHealthCheckResult := do
  TossOAuthClient.invalidate
  let token ← oauth.getValidToken env
  let checkedAt ← Program.read fun s : State => env.now s.log.length
  let cached ← Program.read fun s : State => s.cachedToken
  return {
    ok := decide (token ≠ "")
    checkedAt
    tokenExpiresAt := cached.map AccessToken.expiresAt }

/-- A call of a gateway, or a check of the credentials behind both. -/
inductive GatewayUse
  | call (endpoint : GatewayCall)
  | checkAuthHealth

def GatewayUse.perform (env : Env) (gateways : TossGateways) :
    GatewayUse → Action (GatewayRecord ⊕ AuthHealthCheckResult)
  | call endpoint => do
      let record ← endpoint.perform env gateways
      return .inl record
  | checkAuthHealth => do
      let report ← Toss.checkAuthHealth env gateways.marketData.client.oauth
      return .inr report

def TossGateways.uses (env : Env) (gateways : TossGateways) :
    Set (Action (GatewayRecord ⊕ AuthHealthCheckResult)) :=
  { action | ∃ use : GatewayUse, action = use.perform env gateways }

end Toss
end QuantPlatform
