import QuantPlatform.Toss.Auth

namespace QuantPlatform
namespace Toss

open QuantPlatform.Core Effects

/-- The request httpx is asked for, sent or not. -/
def Event.attempting : Event → Option (Errand × Request)
  | .sent errand request _ => some (errand, request)
  | .refused errand request => some (errand, request)
  | _ => none

/-- From event `start` on, a request of the errand was answered. -/
def AnsweredSince (start : Nat) (errand : Errand) (response : Response) (log : List Event) :
    Prop :=
  ∃ n request, start ≤ n ∧ log[n]? = some (.sent errand request (.response response))

/-- From event `start` on, the clock was read for a token and its lifetime added. -/
def DatedSince (env : Env) (start : Nat) (parsed : ParsedToken) (expiresAt : Instant)
    (log : List Event) : Prop :=
  ∃ n, start ≤ n ∧ log[n]? = some (.issued parsed) ∧
    (env.now n).plusSeconds parsed.expiresIn = .ok expiresAt

/-- From event `start` on, the token endpoint has granted a token. -/
def Granted (env : Env) (start : Nat) (log : List Event) (token : AccessToken) : Prop :=
  ∃ response parsed, AnsweredSince start TossOAuthClient.errand response log ∧
    isSuccess response ∧ parseToken env response.content = .ok parsed ∧
    token.value = parsed.accessToken ∧ DatedSince env start parsed token.expiresAt log

theorem AnsweredSince.append {start : Nat} {errand : Errand} {response : Response}
    {log : List Event} (h : AnsweredSince start errand response log) (e : Event) :
    AnsweredSince start errand response (log ++ [e]) := by
  obtain ⟨n, request, hstart, hn⟩ := h
  refine ⟨n, request, hstart, ?_⟩
  rw [List.getElem?_append_left (List.getElem?_eq_some_iff.mp hn).1]
  exact hn

theorem answeredSince_logged {start : Nat} {errand : Errand} {request : Request}
    {outcome : Outcome} {response : Response} {s : State} (hstart : start ≤ s.log.length)
    (h : outcome = .response response) :
    AnsweredSince start errand response (s.logged (.sent errand request outcome)).log := by
  refine ⟨s.log.length, request, hstart, ?_⟩
  rw [State.logged_log, List.getElem?_append_right (Nat.le_refl _), Nat.sub_self, h]
  rfl

theorem DatedSince.append {env : Env} {start : Nat} {parsed : ParsedToken} {expiresAt : Instant}
    {log : List Event} (h : DatedSince env start parsed expiresAt log) (e : Event) :
    DatedSince env start parsed expiresAt (log ++ [e]) := by
  obtain ⟨n, hstart, hn, hdated⟩ := h
  refine ⟨n, hstart, ?_, hdated⟩
  rw [List.getElem?_append_left (List.getElem?_eq_some_iff.mp hn).1]
  exact hn

theorem Granted.append {env : Env} {start : Nat} {log : List Event} {token : AccessToken}
    (h : Granted env start log token) (e : Event) : Granted env start (log ++ [e]) token := by
  obtain ⟨response, parsed, hanswered, hsuccess, hparsed, hvalue, hdated⟩ := h
  exact ⟨response, parsed, hanswered.append e, hsuccess, hparsed, hvalue, hdated.append e⟩

section Rules

variable {env : Env} {start : Nat} {I : State → Prop}

/-- A state of the invariant in which the log has grown to `start`. -/
def From (I : State → Prop) (start : Nat) (s : State) : Prop := I s ∧ start ≤ s.log.length

theorem From.logged {s : State} {e : Event} (h : From I start s)
    (he : I s → I (s.logged e)) : From I start (s.logged e) := by
  refine ⟨he h.1, ?_⟩
  rw [State.logged_log, List.length_append]
  exact Nat.le_add_right_of_le h.2

theorem sleep_from (hslept : ∀ s seconds, I s → I (s.logged (.slept seconds)))
    (seconds : PyFloat) :
    Program.Triple (From I start) (sleep seconds) (fun _ => From I start) (fun _ => I) :=
  triple_sleep (fun _ s hs => hs.logged (hslept s seconds)) fun _ _ s hs => hslept s seconds hs.1

theorem wait_from (hlooked : ∀ s party group, I s → I (s.logged (.looked party group)))
    (hpassed : ∀ s party group, I s → I (s.logged (.passed party group)))
    (hslept : ∀ s seconds, I s → I (s.logged (.slept seconds)))
    (hnoted : ∀ s party group time, I s → I (s.noteCall party group time))
    (throttle : GroupThrottle) (party : Party) (group : RateLimitGroup) :
    Program.Triple (From I start) (throttle.wait env party group) (fun _ => From I start)
      (fun _ => I) :=
  throttle.wait_keeps party group (fun s hs => hs.logged (hlooked s party group))
    (fun s hs => hs.logged (hpassed s party group))
    (fun s time hs => ⟨hnoted s party group time hs.1, hs.2⟩) (sleep_from hslept)

/-- A request whose every attempt keeps the invariant, and the answer that it returns. -/
theorem request_from (hslept : ∀ s seconds, I s → I (s.logged (.slept seconds)))
    (errand : Errand) (http : BaseApiClient) (method path : String)
    (params : Option (List (String × PyValue))) (headers : List (String × String))
    (data : Option (List (String × String)))
    (hasked : ∀ s e, e.attempting = some (errand,
      { method, url := http.url path, timeoutSeconds := http.policy.timeoutSeconds, params,
        headers, data }) → I s → I (s.logged e)) :
    Program.Triple (From I start) (http.request env errand method path params headers data)
      (fun response s => From I start s ∧ AnsweredSince start errand response s.log)
      (fun _ => I) := by
  unfold BaseApiClient.request
  rw [List.range_eq_range']
  refine @BaseApiClient.triple_attempts env http errand _ _ _ (fun _ => From I start)
    (fun _ outcome s => From I start s ∧
      ∀ response, outcome = .response response → AnsweredSince start errand response s.log)
    ?_ ?_ ?_ ?_ http.policy.maxRetries 0 (Nat.zero_add _)
  · intro attempt _
    refine triple_transmit (fun _ s hs => ⟨hs.logged (hasked s _ rfl), ?_⟩)
      fun error _ s hs => hasked s _ rfl hs.1
    exact fun response houtcome => answeredSince_logged hs.2 houtcome
  · intro attempt outcome response hjudge _ s hs
    exact ⟨hs.1, hs.2 response (BaseApiClient.judge_eq_ok_iff.mp hjudge).1⟩
  · exact fun outcome e _ s hs => hs.1.1
  · intro outcome e attempt _ _
    exact (sleep_from hslept _).conseq (fun _ hs => hs.1) (fun _ _ hs => hs) fun _ _ hs => hs

theorem sendWithStatusRetry_from (hslept : ∀ s seconds, I s → I (s.logged (.slept seconds)))
    {errand : Errand} (retry : StatusRetry) {send : Action Response}
    (hsend : Program.Triple (From I start) send
      (fun response s => From I start s ∧ AnsweredSince start errand response s.log)
      (fun _ => I)) :
    Program.Triple (From I start) (retry.sendWithStatusRetry send)
      (fun response s => From I start s ∧ AnsweredSince start errand response s.log)
      (fun _ => I) := by
  refine StatusRetry.triple_sendWithStatusRetry _ hsend (fun _ _ hs => hs) ?_
  intro response attempt _ _
  exact (sleep_from hslept _).conseq (fun _ hs => hs.1) (fun _ _ hs => hs) fun _ _ hs => hs

end Rules

/-- The request for a token. -/
structure IsTokenRequest (oauth : TossOAuthClient) (req : Request) : Prop where
  method : req.method = "POST"
  url : req.url = oauth.http.url "/oauth2/token"
  params : req.params = none
  headers : req.headers = []
  data : req.data = some [("grant_type", "client_credentials"), ("client_id", oauth.clientId),
    ("client_secret", oauth.clientSecret)]

/-- A fetch brings about clock readings and sleeps that keep the invariant, and token
requests. -/
structure KeptByFetch (oauth : TossOAuthClient) (I : State → Prop) : Prop where
  quiet : ∀ s e, e.attempting = none → e.checking = none → I s → I (s.logged e)
  asked : ∀ s e req, e.attempting = some (TossOAuthClient.errand, req) →
    IsTokenRequest oauth req → I s → I (s.logged e)
  noted : ∀ s party group time, I s → I (s.noteCall party group time)

/-- A token that is fetched has been granted since. -/
theorem TossOAuthClient.fetchToken_grants {env : Env} {oauth : TossOAuthClient} {start : Nat}
    {I : State → Prop} (hkept : KeptByFetch oauth I) :
    Program.Triple (From I start) (oauth.fetchToken env)
      (fun token s => From I start s ∧ Granted env start s.log token) (fun _ => I) := by
  have hslept : ∀ s seconds, I s → I (s.logged (.slept seconds)) := fun s _ =>
    hkept.quiet s _ rfl rfl
  refine Program.triple_bind _ (wait_from (fun s _ _ => hkept.quiet s _ rfl rfl)
    (fun s _ _ => hkept.quiet s _ rfl rfl) hslept hkept.noted _ _ _) fun _ => ?_
  refine Program.triple_bind _ (sendWithStatusRetry_from hslept oauth.retry
    (request_from hslept errand oauth.http "POST" tokenPath none []
      (some [("grant_type", "client_credentials"), ("client_id", oauth.clientId),
        ("client_secret", oauth.clientSecret)])
      fun s e he => hkept.asked s e _ he ⟨rfl, rfl, rfl, rfl, rfl⟩)) fun response => ?_
  refine Program.triple_bind (fun _ s => isSuccess response ∧ From I start s ∧
    AnsweredSince start errand response s.log) ?_ fun _ => ?_
  · exact Program.triple_lift (fun _ hok _ hs => ⟨raiseForStatus_eq_ok_iff.mp hok, hs⟩)
      fun _ _ _ hs => hs.1.1
  refine Program.triple_of_pure fun hsuccess => ?_
  refine Program.triple_bind (fun parsed s => (parseToken env response.content = .ok parsed ∧
    From I start s) ∧ AnsweredSince start errand response s.log) ?_ fun parsed => ?_
  · exact Program.triple_lift (fun parsed hparsed s hs => ⟨⟨hparsed, hs.1⟩, hs.2⟩)
      fun _ _ _ hs => hs.1.1
  refine Program.triple_bind (fun now s => (parseToken env response.content = .ok parsed ∧
    From I start s) ∧ AnsweredSince start errand response s.log ∧
    ∃ n, start ≤ n ∧ s.log[n]? = some (.issued parsed) ∧ now = env.now n) ?_ fun now => ?_
  · refine triple_readClock fun s hs => ⟨⟨hs.1.1, ?_⟩, hs.2.append _, ?_⟩
    · exact hs.1.2.logged (hkept.quiet s _ rfl rfl)
    · exact ⟨s.log.length, hs.1.2.2, List.getElem?_concat_length, rfl⟩
  refine Program.triple_bind (fun expiresAt s => From I start s ∧
    Granted env start s.log { value := parsed.accessToken, expiresAt })
    (triple_dated ?_ fun _ _ _ hs => hs.1.2.1) fun expiresAt => Program.triple_pure fun _ hs => hs
  intro expiresAt hexpires s hs
  obtain ⟨⟨hparsed, hfrom⟩, hanswered, n, hstart, hn, rfl⟩ := hs
  exact ⟨hfrom, response, parsed, hanswered, hsuccess, hparsed, rfl, n, hstart, hn, hexpires⟩

end Toss
end QuantPlatform
