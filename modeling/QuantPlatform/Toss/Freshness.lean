/-
How fresh the token of a request is.

A token is looked at once in a round: a cached one is compared with the clock and
replaced when it nears its expiry, and one that is fetched is taken as it is.  The
attempts of the round all carry what was taken.  So what holds of the token on the
wire is what held of it at that reading, and the answers and delays of the earlier
attempts lie between the two.
-/
import QuantPlatform.Toss.Client

namespace QuantPlatform
namespace Toss

open QuantPlatform.Core Effects

/-- At event `n` the token's recorded expiry, less the leeway, is still to come. -/
def FreshAt (env : Env) (leeway : ℚ) (token : AccessToken) (n : Nat) : Prop :=
  (env.now n : ℚ) < token.expiresAt - leeway * 1000000

/-- Event `i` is the reading at which the token was taken: of a cached token it shows
that it is fresh, and a new one is dated by it. -/
def TakenAt (env : Env) (leeway : ℚ) (log : List Event) (token : AccessToken) (i : Nat) : Prop :=
  (seen Event.checking log i = some token ∧ FreshAt env leeway token i) ∨
    ∃ parsed, seen Event.issuing log i = some parsed ∧ token.value = parsed.accessToken ∧
      (env.now i).plusSeconds parsed.expiresIn = .ok token.expiresAt ∧
      (leeway < parsed.expiresIn → FreshAt env leeway token i)

/-- Event `m` is an attempt with the token, or the delay after one. -/
def Attempted (log : List Event) (token : AccessToken) (m : Nat) : Prop :=
  (∃ errand, seen Event.sending log m = some errand ∧ errand.token = some token) ∨
    ∃ seconds, seen Event.sleeping log m = some seconds

/-- Before event `n` the token was taken, and nothing but attempts with it came since. -/
def InHand (env : Env) (leeway : ℚ) (log : List Event) (token : AccessToken) (n : Nat) : Prop :=
  ∃ i < n, TakenAt env leeway log token i ∧ ∀ m, i < m → m < n → Attempted log token m

/-- The `Authorization` header of every request names the token in hand. -/
def BearersInHand (env : Env) (leeway : ℚ) (log : List Event) : Prop :=
  ∀ n errand value, seen Event.authorization log n = some (errand, value) →
    ∃ token, errand.token = some token ∧ value = "Bearer " ++ token.value ∧
      InHand env leeway log token n

section Growth

variable {env : Env} {leeway : ℚ} {log : List Event} {token : AccessToken} {n : Nat} {e : Event}

theorem TakenAt.append (h : TakenAt env leeway log token n) (e : Event) :
    TakenAt env leeway (log ++ [e]) token n := by
  rcases h with ⟨hchecked, hfresh⟩ | ⟨parsed, hissued, hdated⟩
  · rw [← seen_append_of_lt (lt_length_of_seen hchecked) [e]] at hchecked
    exact Or.inl ⟨hchecked, hfresh⟩
  · rw [← seen_append_of_lt (lt_length_of_seen hissued) [e]] at hissued
    exact Or.inr ⟨parsed, hissued, hdated⟩

theorem Attempted.append (h : Attempted log token n) (e : Event) :
    Attempted (log ++ [e]) token n := by
  rcases h with ⟨errand, hsent, hcarries⟩ | ⟨seconds, hslept⟩
  · rw [← seen_append_of_lt (lt_length_of_seen hsent) [e]] at hsent
    exact Or.inl ⟨errand, hsent, hcarries⟩
  · rw [← seen_append_of_lt (lt_length_of_seen hslept) [e]] at hslept
    exact Or.inr ⟨seconds, hslept⟩

theorem InHand.append (h : InHand env leeway log token n) (e : Event) :
    InHand env leeway (log ++ [e]) token n := by
  obtain ⟨i, hi, htaken, hattempts⟩ := h
  exact ⟨i, hi, htaken.append e, fun m him hmn => (hattempts m him hmn).append e⟩

/-- An attempt, or the delay after one, leaves the token in hand. -/
theorem InHand.attempted (h : InHand env leeway log token log.length)
    (he : Attempted (log ++ [e]) token log.length) :
    InHand env leeway (log ++ [e]) token (log ++ [e]).length := by
  obtain ⟨i, hi, htaken, hattempts⟩ := h
  rw [List.length_append, List.length_singleton]
  refine ⟨i, by omega, htaken.append e, fun m him hmn => ?_⟩
  rcases Nat.lt_succ_iff_lt_or_eq.mp hmn with hold | hnew
  · exact (hattempts m him hold).append e
  · rw [hnew]
    exact he

/-- The reading itself puts the token in hand. -/
theorem TakenAt.inHand (h : TakenAt env leeway (log ++ [e]) token log.length) :
    InHand env leeway (log ++ [e]) token (log ++ [e]).length := by
  rw [List.length_append, List.length_singleton]
  refine ⟨log.length, Nat.lt_succ_self _, h, fun m hlo hhi => ?_⟩
  omega

theorem BearersInHand.append (h : BearersInHand env leeway log)
    (he : ∀ errand value, e.authorization = some (errand, value) →
      ∃ token, errand.token = some token ∧ value = "Bearer " ++ token.value ∧
        InHand env leeway log token log.length) :
    BearersInHand env leeway (log ++ [e]) := by
  intro n errand value hseen
  rcases seen_append_eq_some_iff.mp hseen with hold | ⟨hn, hnew⟩
  · obtain ⟨token, hcarries, hvalue, hinHand⟩ := h n errand value hold
    exact ⟨token, hcarries, hvalue, hinHand.append e⟩
  · obtain ⟨token, hcarries, hvalue, hinHand⟩ := he errand value hnew
    exact ⟨token, hcarries, hvalue, hn ▸ hinHand.append e⟩

/-- An event that is no request with an `Authorization` header. -/
theorem BearersInHand.quiet (h : BearersInHand env leeway log) (he : e.authorization = none) :
    BearersInHand env leeway (log ++ [e]) := by
  refine h.append fun errand value hnew => ?_
  rw [he] at hnew
  cases hnew

theorem bearersInHand_nil : BearersInHand env leeway [] := by
  intro n errand value hseen
  rw [seen_nil] at hseen
  cases hseen

/-- A check that a cached token passed. -/
theorem takenAt_of_checked {limit : Instant}
    (hlimit : token.expiresAt.minusSeconds leeway = .ok limit)
    (hbefore : ¬ limit ≤ env.now log.length) :
    TakenAt env leeway (log ++ [.checked token]) token log.length :=
  Or.inl ⟨seen_append_length _ _ _, Instant.lt_of_lt_minusSeconds hlimit (not_le.mp hbefore)⟩

/-- A token dated by the reading, which is fresh then if it lives longer than the leeway. -/
theorem takenAt_of_issued {parsed : ParsedToken} (hvalue : token.value = parsed.accessToken)
    (hexpires : (env.now log.length).plusSeconds parsed.expiresIn = .ok token.expiresAt) :
    TakenAt env leeway (log ++ [.issued parsed]) token log.length := by
  refine Or.inr ⟨parsed, seen_append_length _ _ _, hvalue, hexpires, fun hlifetime => ?_⟩
  have hexact : token.expiresAt = env.now log.length + parsed.expiresIn * 1000000 :=
    Instant.plusSeconds_intCast_eq_ok hexpires
  unfold FreshAt
  rw [hexact]
  push_cast
  linarith

end Growth

section Programs

variable {env : Env} {leeway : ℚ}

theorem sleep_bearers (seconds : PyFloat) :
    Program.Triple (fun s => BearersInHand env leeway s.log) (sleep seconds)
      (fun _ s => BearersInHand env leeway s.log) (fun _ s => BearersInHand env leeway s.log) :=
  triple_sleep (fun _ _ hs => hs.quiet rfl) fun _ _ _ hs => hs.quiet rfl

theorem wait_bearers (throttle : GroupThrottle) (party : Party) (group : RateLimitGroup) :
    Program.Triple (fun s => BearersInHand env leeway s.log) (throttle.wait env party group)
      (fun _ s => BearersInHand env leeway s.log) (fun _ s => BearersInHand env leeway s.log) :=
  throttle.wait_keeps party group (fun _ hs => hs.quiet rfl) (fun _ hs => hs.quiet rfl)
    (fun _ _ hs => hs) sleep_bearers

/-- The attempts of a round, by what each of them and each delay keeps. -/
theorem attempts_bearers {I : State → Prop} {errand : Errand} {http : BaseApiClient}
    {retry : StatusRetry} {method path : String} {params : Option (List (String × PyValue))}
    {headers : List (String × String)} {data : Option (List (String × String))}
    (hbearers : ∀ s, I s → BearersInHand env leeway s.log)
    (hslept : ∀ s seconds, I s → I (s.logged (.slept seconds)))
    (hsent : ∀ s request outcome, request.headers = headers → I s →
      I (s.logged (.sent errand request outcome))) :
    Program.Triple I
      (retry.sendWithStatusRetry (http.request env errand method path params headers data))
      (fun _ => I) (fun _ s => BearersInHand env leeway s.log) := by
  have hsleep : ∀ seconds, Program.Triple I (sleep seconds) (fun _ => I)
      fun _ s => BearersInHand env leeway s.log := fun seconds =>
    triple_sleep (fun _ s hs => hslept s seconds hs) fun _ _ s hs => (hbearers s hs).quiet rfl
  refine StatusRetry.triple_sendWithStatusRetry (fun _ => I) ?_ (fun _ _ hs => hs)
    fun _ _ _ _ => hsleep _
  refine BaseApiClient.triple_request (fun _ => I) ?_ (fun _ _ _ _ hs => hs)
    (fun _ _ _ s hs => hbearers s hs) fun _ _ _ _ _ => hsleep _
  intro request _ hheaders
  exact triple_transmit (fun _ s hs => hsent s request _ hheaders hs)
    fun _ _ s hs => (hbearers s hs).quiet rfl

variable {client : TossRestClient}

/-- A token request has no `Authorization` header. -/
theorem fetchToken_bearers (oauth : TossOAuthClient) :
    Program.Triple (fun s => BearersInHand env leeway s.log) (oauth.fetchToken env)
      (fun token s => BearersInHand env leeway s.log ∧
        InHand env leeway s.log token s.log.length)
      (fun _ s => BearersInHand env leeway s.log) := by
  refine Program.triple_bind _ (wait_bearers _ _ _) fun _ => ?_
  refine Program.triple_bind _ (attempts_bearers (fun _ hs => hs) ?_ ?_) fun response => ?_
  · exact fun _ _ hs => hs.quiet rfl
  · intro s request outcome hheaders hs
    refine hs.quiet ?_
    show (request.headers.lookup "Authorization").map _ = none
    rw [hheaders]
    rfl
  refine Program.triple_bind (fun _ s => BearersInHand env leeway s.log) ?_ fun _ => ?_
  · exact Program.triple_lift (fun _ _ _ hs => hs) fun _ _ _ hs => hs
  refine Program.triple_bind (fun _ s => BearersInHand env leeway s.log) ?_ fun parsed => ?_
  · exact Program.triple_lift (fun _ _ _ hs => hs) fun _ _ _ hs => hs
  refine Program.triple_bind (fun now s => BearersInHand env leeway s.log ∧
    ∃ log, s.log = log ++ [.issued parsed] ∧ now = env.now log.length) ?_ fun now => ?_
  · exact triple_readClock fun s hs => ⟨hs.quiet rfl, s.log, rfl, rfl⟩
  refine Program.triple_bind (fun expiresAt s => BearersInHand env leeway s.log ∧
    InHand env leeway s.log { value := parsed.accessToken, expiresAt } s.log.length)
    (triple_dated ?_ fun _ _ _ hs => hs.1) fun expiresAt => Program.triple_pure fun _ hs => hs
  intro expiresAt hexpires s hs
  obtain ⟨hbearers, log, hlog, rfl⟩ := hs
  refine ⟨hbearers, ?_⟩
  rw [hlog]
  exact (takenAt_of_issued rfl hexpires).inHand

theorem isExpiring_bearers (oauth : TossOAuthClient) (token : AccessToken) :
    Program.Triple (fun s => BearersInHand env oauth.expiryLeewaySeconds s.log)
      (oauth.isExpiring env token)
      (fun expiring s => BearersInHand env oauth.expiryLeewaySeconds s.log ∧
        (¬ expiring = true → InHand env oauth.expiryLeewaySeconds s.log token s.log.length))
      (fun _ s => BearersInHand env oauth.expiryLeewaySeconds s.log) := by
  refine Program.triple_bind (fun now s => BearersInHand env oauth.expiryLeewaySeconds s.log ∧
    ∃ log, s.log = log ++ [.checked token] ∧ now = env.now log.length) ?_ fun now => ?_
  · exact triple_readClock fun s hs => ⟨hs.quiet rfl, s.log, rfl, rfl⟩
  refine Program.triple_bind (fun limit s => BearersInHand env oauth.expiryLeewaySeconds s.log ∧
    (¬ limit ≤ now → InHand env oauth.expiryLeewaySeconds s.log token s.log.length))
    (triple_dated ?_ fun _ _ _ hs => hs.1) fun limit => ?_
  · intro limit hlimit s hs
    obtain ⟨hbearers, log, hlog, rfl⟩ := hs
    refine ⟨hbearers, fun hbefore => ?_⟩
    rw [hlog]
    exact (takenAt_of_checked hlimit hbefore).inHand
  · refine Program.triple_pure fun s hs => ⟨hs.1, fun hfresh => hs.2 ?_⟩
    rwa [decide_eq_true_eq] at hfresh

theorem validToken_bearers (oauth : TossOAuthClient) :
    Program.Triple (fun s => BearersInHand env oauth.expiryLeewaySeconds s.log)
      (oauth.validToken env)
      (fun token s => BearersInHand env oauth.expiryLeewaySeconds s.log ∧
        InHand env oauth.expiryLeewaySeconds s.log token s.log.length)
      (fun _ s => BearersInHand env oauth.expiryLeewaySeconds s.log) := by
  refine TossOAuthClient.triple_validToken (fetchToken_bearers oauth) (fun _ _ hs => hs)
    fun token => ?_
  exact (isExpiring_bearers oauth token).conseq (fun _ hs => hs)
    (fun _ _ hs => ⟨hs.1, fun hvalid => ⟨hs.1, hs.2 hvalid⟩⟩) fun _ _ hs => hs

theorem send_bearers (path : String) (params : Option (List (String × PyValue)))
    (requiresAccount : Bool) (group : RateLimitGroup) :
    Program.Triple (fun s => BearersInHand env client.oauth.expiryLeewaySeconds s.log)
      (client.send env path params requiresAccount group)
      (fun _ s => BearersInHand env client.oauth.expiryLeewaySeconds s.log)
      (fun _ s => BearersInHand env client.oauth.expiryLeewaySeconds s.log) := by
  refine Program.triple_bind _ (wait_bearers _ _ _) fun _ => ?_
  refine Program.triple_bind _ (validToken_bearers client.oauth) fun token => ?_
  refine Program.triple_bind _ (TossRestClient.accountHeader_keeps fun _ _ hs => hs.1)
    fun account => ?_
  refine Program.Triple.conseq (attempts_bearers (fun _ hs => hs.1) ?_ ?_) (fun _ hs => hs)
    (fun _ _ hs => hs.1) fun _ _ hs => hs
  · intro s seconds hs
    exact ⟨hs.1.quiet rfl, hs.2.attempted (Or.inr ⟨seconds, seen_append_length _ _ _⟩)⟩
  · intro s request outcome hheaders hs
    refine ⟨hs.1.append fun errand value hseen => ?_,
      hs.2.attempted (Or.inl ⟨_, seen_append_length _ _ _, rfl⟩)⟩
    have hlookup : request.headers.lookup "Authorization" = some ("Bearer " ++ token.value) := by
      rw [hheaders]
      rfl
    simp only [Event.authorization, hlookup, Option.map_some, Option.some.injEq,
      Prod.mk.injEq] at hseen
    obtain ⟨rfl, rfl⟩ := hseen
    exact ⟨token, rfl, rfl, hs.2⟩

theorem get_bearers (path : String) (params : Option (List (String × PyValue)))
    (requiresAccount : Bool) (group : Option RateLimitGroup) :
    Program.Triple (fun s => BearersInHand env client.oauth.expiryLeewaySeconds s.log)
      (client.get env path params requiresAccount group)
      (fun _ s => BearersInHand env client.oauth.expiryLeewaySeconds s.log)
      (fun _ s => BearersInHand env client.oauth.expiryLeewaySeconds s.log) :=
  TossRestClient.get_keeps (send_bearers path params requiresAccount) (fun _ hs => hs)
    fun _ _ hs => hs.quiet rfl

end Programs

/-- In every run a request with an `Authorization` header carries the token its round
took: fresh at the reading it was taken by, unless it was new and lives no longer
than the leeway. -/
theorem bearer_in_hand {env : Env} {client : TossRestClient} {s : State}
    (hrun : Program.Reaches (client.calls env) State.fresh s) {n : Nat} {errand : Errand}
    {value : String} (hsent : seen Event.authorization s.log n = some (errand, value)) :
    ∃ token, errand.token = some token ∧ value = "Bearer " ++ token.value ∧
      InHand env client.oauth.expiryLeewaySeconds s.log token n := by
  have hbearers : BearersInHand env client.oauth.expiryLeewaySeconds s.log := by
    refine hrun.invariant (I := fun s =>
      BearersInHand env client.oauth.expiryLeewaySeconds s.log) ?_ bearersInHand_nil
    intro call hcall
    obtain ⟨path, params, requiresAccount, group, rfl⟩ := hcall
    exact get_bearers path params requiresAccount group
  exact hbearers n errand value hsent

/-- An account call whose token lives for an hour, answered with a 429 that asks for
two hours and then with a 200. -/
def lateRetryEnv : Env :=
  sampleEnv (fun _ => 0) (fun n => if n ≤ 5 then 0 else 7200000000) 3600 fun n =>
    if n = 2 then answered 200 [] (tokenBody 3600)
    else if n = 4 then answered 429 [("Retry-After", "7200")] [] else answered 200 [] emptyBody

theorem late_retry_in_hand :
    ∃ token, sampleErrand.token = some token ∧ "Bearer tok-1" = "Bearer " ++ token.value ∧
      InHand lateRetryEnv 30 (sampleCall lateRetryEnv State.fresh).2.log token 6 :=
  bearer_in_hand (reaches_sampleCall lateRetryEnv) (by decide +kernel)

/-- An account call whose token lives for twenty seconds, within the leeway of thirty. -/
def briefTokenEnv : Env :=
  sampleEnv (fun _ => 0) (fun _ => 0) 20 fun n =>
    if n = 2 then answered 200 [] (tokenBody 20) else answered 200 [] emptyBody

/-- In every run each request is sent while its token is fresh. -/
def SendsOnlyFresh (env : Env) (client : TossRestClient) : Prop :=
  ∀ s, Program.Reaches (client.calls env) State.fresh s →
    ∀ n errand value token, seen Event.authorization s.log n = some (errand, value) →
      errand.token = some token → FreshAt env client.oauth.expiryLeewaySeconds token n

/-- A new token may be stale as it comes, and a retry may come too late for its token. -/
theorem stale_tokens_sent :
    ¬ SendsOnlyFresh briefTokenEnv sampleClient ∧ ¬ SendsOnlyFresh lateRetryEnv sampleClient := by
  constructor
  · intro hfresh
    have hbrief := hfresh _ (reaches_sampleCall briefTokenEnv) 4
      { sampleErrand with token := some { value := "tok-1", expiresAt := 20000000 } }
      "Bearer tok-1" _ (by decide +kernel) rfl
    exact absurd hbrief (by unfold FreshAt; decide +kernel)
  · intro hfresh
    have hlate := hfresh _ (reaches_sampleCall lateRetryEnv) 6 sampleErrand "Bearer tok-1" _
      (by decide +kernel) rfl
    exact absurd hlate (by unfold FreshAt; decide +kernel)

end Toss
end QuantPlatform
