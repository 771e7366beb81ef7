import QuantPlatform.Toss.Factory
import QuantPlatform.Toss.Grants

namespace QuantPlatform
namespace Toss

open QuantPlatform.Core Effects

/-- The events from `start` on: no cached token is looked at, and httpx is asked for token
requests only. -/
def AsksForTokens (oauth : TossOAuthClient) (start : Nat) (log : List Event) : Prop :=
  ∀ n e, start ≤ n → log[n]? = some e → e.checking = none ∧
    ∀ errand req, e.attempting = some (errand, req) →
      errand = TossOAuthClient.errand ∧ IsTokenRequest oauth req

/-- The log that the check found, and after it the check's own events; no token is cached. -/
structure Checking (oauth : TossOAuthClient) (before : List Event) (s : State) : Prop where
  found : before <+: s.log
  asks : AsksForTokens oauth before.length s.log
  uncached : s.cachedToken = none

theorem AsksForTokens.append {oauth : TossOAuthClient} {start : Nat} {log : List Event} {e : Event}
    (h : AsksForTokens oauth start log) (hcheck : e.checking = none)
    (he : ∀ errand req, e.attempting = some (errand, req) →
      errand = TossOAuthClient.errand ∧ IsTokenRequest oauth req) :
    AsksForTokens oauth start (log ++ [e]) := by
  intro n e' hstart hn
  rcases Nat.lt_or_ge n log.length with hold | hnew
  · rw [List.getElem?_append_left hold] at hn
    exact h n e' hstart hn
  · rw [List.getElem?_append_right hnew] at hn
    cases List.mem_singleton.mp (List.mem_of_getElem? hn)
    exact ⟨hcheck, he⟩

section Checks

variable {env : Env} {oauth : TossOAuthClient} {before : List Event}

theorem checking_keptByFetch : KeptByFetch oauth (Checking oauth before) where
  quiet s e hquiet hcheck hs := by
    refine ⟨hs.found.trans (List.prefix_append _ _), hs.asks.append hcheck ?_, hs.uncached⟩
    intro errand req hnew
    rw [hquiet] at hnew
    cases hnew
  asked s e req he htoken hs := by
    refine ⟨hs.found.trans (List.prefix_append _ _), hs.asks.append ?_ ?_, hs.uncached⟩
    · cases e with
      | sent | refused => rfl
      | slept | looked | passed | checked | issued | received => cases he
    · intro errand req' hnew
      rw [he] at hnew
      cases hnew
      exact ⟨rfl, htoken⟩
  noted _ _ _ _ hs := ⟨hs.found, hs.asks, hs.uncached⟩

/-- The token that the check got, cached. -/
structure Renewed (env : Env) (oauth : TossOAuthClient) (before : List Event)
    (token : AccessToken) (s : State) : Prop where
  found : before <+: s.log
  asks : AsksForTokens oauth before.length s.log
  cached : s.cachedToken = some token
  granted : Granted env before.length s.log token

theorem renew_renewed :
    Program.Triple (From (Checking oauth before) before.length) (oauth.renew env)
      (Renewed env oauth before) (fun _ => Checking oauth before) := by
  refine Program.triple_bind _ (oauth.fetchToken_grants checking_keptByFetch) fun token => ?_
  refine Program.triple_bind (fun _ => Renewed env oauth before token) ?_ fun _ => ?_
  · exact Program.triple_modify fun s hs => ⟨hs.1.1.found, hs.1.1.asks, rfl, hs.2⟩
  · exact Program.triple_pure fun _ hs => hs

/-- With nothing in the cache there is nothing to look at. -/
theorem validToken_renewed :
    Program.Triple (From (Checking oauth before) before.length) (oauth.validToken env)
      (Renewed env oauth before) (fun _ => Checking oauth before) := by
  refine Program.triple_bind (fun cached s => cached = none ∧
    From (Checking oauth before) before.length s) ?_ fun cached => ?_
  · exact Program.triple_read fun s hs => ⟨hs.1.uncached, hs⟩
  · refine Program.triple_of_pure fun hnone => ?_
    rw [hnone]
    exact renew_renewed

theorem checkAuthHealth_renewed :
    Program.Triple (fun s => s.log = before) (checkAuthHealth env oauth)
      (fun report s => ∃ token, Renewed env oauth before token s ∧
        (report.ok = true ↔ token.value ≠ "") ∧ report.tokenExpiresAt = some token.expiresAt)
      (fun _ => Checking oauth before) := by
  refine Program.triple_bind (fun _ => From (Checking oauth before) before.length) ?_ fun _ => ?_
  · refine Program.triple_modify fun s hs => ?_
    cases hs
    refine ⟨⟨List.prefix_refl _, fun n e hstart hn => ?_, rfl⟩, Nat.le_refl _⟩
    rw [List.getElem?_eq_none hstart] at hn
    cases hn
  refine Program.triple_bind (fun value s => ∃ token, Renewed env oauth before token s ∧
    value = token.value) ?_ fun value => ?_
  · refine Program.triple_bind _ validToken_renewed fun token => ?_
    exact Program.triple_pure fun _ hs => ⟨token, hs, rfl⟩
  refine Program.triple_bind (fun _ s => ∃ token, Renewed env oauth before token s ∧
    value = token.value) (Program.triple_read fun _ hs => hs) fun checkedAt => ?_
  refine Program.triple_bind (fun cached s => ∃ token, Renewed env oauth before token s ∧
    value = token.value ∧ cached = some token) ?_ fun cached => Program.triple_pure ?_
  · refine Program.triple_read fun s hs => ?_
    obtain ⟨token, hrenewed, hvalue⟩ := hs
    exact ⟨token, hrenewed, hvalue, hrenewed.cached⟩
  · intro s hs
    obtain ⟨token, hrenewed, rfl, rfl⟩ := hs
    exact ⟨token, hrenewed, decide_eq_true_iff, rfl⟩

end Checks

/-- What the check that started in `s` left behind: a report about a token granted and dated
since, which is the cached one; or an exception, and nothing cached. -/
def Concluded (env : Env) (s : State) : Except Raised AuthHealthCheckResult → State → Prop
  | .ok report, s' => ∃ token, s'.cachedToken = some token ∧
      Granted env s.log.length s'.log token ∧
      (report.ok = true ↔ token.value ≠ "") ∧ report.tokenExpiresAt = some token.expiresAt
  | .error _, s' => s'.cachedToken = none

/-- From any state, whatever is cached, the check looks at no cached token, asks httpx for
token requests only, and concludes from what they got. -/
theorem health_by_fresh_token (env : Env) (oauth : TossOAuthClient) (s : State) :
    s.log <+: (checkAuthHealth env oauth s).2.log ∧
      AsksForTokens oauth s.log.length (checkAuthHealth env oauth s).2.log ∧
      Concluded env s (checkAuthHealth env oauth s).1 (checkAuthHealth env oauth s).2 := by
  cases hrun : checkAuthHealth env oauth s with
  | mk outcome s' =>
    cases outcome with
    | ok report =>
      obtain ⟨token, hrenewed, hreport⟩ := checkAuthHealth_renewed.ok rfl hrun
      exact ⟨hrenewed.found, hrenewed.asks, token, hrenewed.cached, hrenewed.granted, hreport⟩
    | error e =>
      have hchecking := checkAuthHealth_renewed.error rfl hrun
      exact ⟨hchecking.found, hchecking.asks, hchecking.uncached⟩

end Toss
end QuantPlatform
