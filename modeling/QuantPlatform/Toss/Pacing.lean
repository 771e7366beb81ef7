/-
Pacing on the wire: how far apart the requests of one rate-limit group are sent.

A throttle lets the calls of a group through at least an interval apart.  But it is
asked once for a round: the retries of the round are not held back, and a token
may be fetched between the moment the round is let through and its request.  So
two requests are an interval apart when neither of these eats the interval up.

The clock is monotonic and a `time.sleep` that returns has advanced it by what was
asked for.
-/
import QuantPlatform.Toss.Client

namespace QuantPlatform
namespace Toss

open QuantPlatform.Core Effects

/-- The errand is one of a client in a group. -/
def Errand.In (errand : Errand) (party : Party) (group : RateLimitGroup) : Prop :=
  errand.party = party ∧ errand.group = group

/-- The throttle that a client of the gateway waits for. -/
def TossRestClient.throttleOf (client : TossRestClient) : Party → GroupThrottle
  | .oauth => client.oauth.throttle
  | .rest => client.throttle

/-- `1 / tps`. -/
def GroupThrottle.interval (throttle : GroupThrottle) (group : RateLimitGroup) : ℚ :=
  1 / throttle.tps group

/-- Every sleep that returned took at least as long as asked for. -/
def SleepsAtLeast (env : Env) (log : List Event) : Prop :=
  ∀ n d, seen Event.sleeping log n = some (.finite d) → sleepError (.finite d) = none →
    env.monotonic n + d ≤ env.monotonic (n + 1)

/-- Requests `i` and `j` follow each other in the group of both. -/
structure Consecutive (log : List Event) (i j : Nat) (first second : Errand) : Prop where
  lt : i < j
  first_sent : seen Event.sending log i = some first
  second_sent : seen Event.sending log j = some second
  same_group : first.group = second.group
  between : ∀ m errand, i < m → m < j → seen Event.sending log m = some errand →
    errand.group ≠ second.group

/-- The throttle's last pass before event `n` is event `k`. -/
structure LastPass (log : List Event) (party : Party) (group : RateLimitGroup) (n k : Nat) :
    Prop where
  lt : k < n
  passed : seen Event.passing log k = some (party, group)
  last : ∀ m, k < m → m < n → seen Event.passing log m ≠ some (party, group)

/-- Request `j` does not eat up the interval since request `i`. -/
structure Unhurried (env : Env) (client : TossRestClient) (log : List Event) (i j : Nat)
    (first second : Errand) : Prop where
  /-- A retry: the time the answer took and the delay after it make up the interval. -/
  retry : ∀ d, j = i + 2 → seen Event.sleeping log (i + 1) = some (.finite d) →
    (client.throttleOf second.party).interval second.group ≤
      env.monotonic (i + 1) - env.monotonic i + d
  /-- A round let through after request `i`: its request lags behind its pass at
  least as long as request `i` did, or the pass itself comes an interval later. -/
  round : ∀ k, LastPass log second.party second.group j k → i < k →
    (first.party = second.party ∧ ∀ k', LastPass log first.party first.group i k' →
      env.monotonic i - env.monotonic k' ≤ env.monotonic j - env.monotonic k) ∨
    env.monotonic i + (client.throttleOf second.party).interval second.group ≤ env.monotonic k
  /-- A request of the other client after the pass: its answer took the interval. -/
  shared : ∀ k, LastPass log second.party second.group j k → k < i → first.party ≠ second.party →
    (client.throttleOf second.party).interval second.group ≤
      env.monotonic (i + 1) - env.monotonic i

/-- Event `n` comes after a pass, with no request of the same client and group
since then. -/
def Opened (log : List Event) (n : Nat) (party : Party) (group : RateLimitGroup) : Prop :=
  ∃ k < n, seen Event.passing log k = some (party, group) ∧
    ∀ m errand, k < m → m < n → seen Event.sending log m = some errand → ¬ errand.In party group

/-- Event `n` comes after a request of the same client and group and a sleep. -/
def Resent (log : List Event) (n : Nat) (party : Party) (group : RateLimitGroup) : Prop :=
  ∃ i d errand, n = i + 2 ∧ seen Event.sending log i = some errand ∧ errand.In party group ∧
    seen Event.sleeping log (i + 1) = some (.finite d) ∧ sleepError (.finite d) = none

def Due (log : List Event) (n : Nat) (party : Party) (group : RateLimitGroup) : Prop :=
  Opened log n party group ∨ Resent log n party group

section Growth

variable {log : List Event} {n : Nat} {party : Party} {group : RateLimitGroup}

theorem Due.append (h : Due log n party group) (hn : n ≤ log.length) (e : Event) :
    Due (log ++ [e]) n party group := by
  rcases h with hopened | hresent
  · obtain ⟨k, hk, hpass, hnone⟩ := hopened
    refine Or.inl ⟨k, hk, ?_, fun m errand hkm hmn hsent => ?_⟩
    · rw [seen_append_of_lt (by omega)]
      exact hpass
    · rw [seen_append_of_lt (by omega)] at hsent
      exact hnone m errand hkm hmn hsent
  · obtain ⟨i, d, errand, hi, hsent, hin, hslept, hslept'⟩ := hresent
    refine Or.inr ⟨i, d, errand, hi, ?_, hin, ?_, hslept'⟩
    · rw [seen_append_of_lt (by omega)]
      exact hsent
    · rw [seen_append_of_lt (by omega)]
      exact hslept

/-- A round stays open until its own client sends in its group. -/
theorem Opened.append (h : Opened log log.length party group) {e : Event}
    (hother : ∀ errand, e.sending = some errand → ¬ errand.In party group) :
    Opened (log ++ [e]) (log ++ [e]).length party group := by
  obtain ⟨k, hk, hpass, hnone⟩ := h
  rw [List.length_append, List.length_singleton]
  refine ⟨k, by omega, ?_, fun m errand hkm hmn hsent => ?_⟩
  · rw [seen_append_of_lt hk]
    exact hpass
  · rcases seen_append_eq_some_iff.mp hsent with hold | ⟨_, hnew⟩
    · exact hnone m errand hkm (lt_length_of_seen hold) hold
    · exact hother errand hnew

theorem opened_of_passed : Opened (log ++ [.passed party group]) (log.length + 1) party group := by
  refine ⟨log.length, Nat.lt_succ_self _, seen_append_length _ _ _, fun m errand hlo hhi => ?_⟩
  omega

end Growth

/-! ## What holds of every log -/

/-- The passes of a throttle are an interval apart, and every request to be paced
was let through by one or is a retry. -/
structure PaceInv (env : Env) (client : TossRestClient) (s : State) : Prop where
  marked : ∀ party group k, seen Event.passing s.log k = some (party, group) →
    ∃ last, s.lastCallAt party group = some last ∧ env.monotonic k ≤ last
  spaced : SleepsAtLeast env s.log → ∀ party group k k', k < k' →
    seen Event.passing s.log k = some (party, group) →
    seen Event.passing s.log k' = some (party, group) →
    env.monotonic k + (client.throttleOf party).interval group ≤ env.monotonic k'
  due : ∀ n errand, seen Event.sending s.log n = some errand →
    0 < (client.throttleOf errand.party).tps errand.group → Due s.log n errand.party errand.group

section Invariant

variable {env : Env} {client : TossRestClient} {s : State}

theorem SleepsAtLeast.of_append {log : List Event} {e : Event}
    (h : SleepsAtLeast env (log ++ [e])) : SleepsAtLeast env log := by
  intro n d hseen
  rw [← seen_append_of_lt (lt_length_of_seen hseen) [e]] at hseen
  exact h n d hseen

theorem paceInv_fresh : PaceInv env client State.fresh where
  marked party group k h := by simp [State.fresh] at h
  spaced _ party group k k' _ h := by simp [State.fresh] at h
  due n errand h := by simp [State.fresh] at h

/-- An event that is no pass, and if it is a request then one that is due. -/
theorem PaceInv.logged (h : PaceInv env client s) {e : Event} (hpass : e.passing = none)
    (hdue : ∀ errand, e.sending = some errand →
      0 < (client.throttleOf errand.party).tps errand.group →
      Due s.log s.log.length errand.party errand.group) :
    PaceInv env client (s.logged e) := by
  have hold : ∀ {k : Nat} {pass : Party × RateLimitGroup},
      seen Event.passing (s.log ++ [e]) k = some pass →
      seen Event.passing s.log k = some pass := by
    intro k pass hseen
    rcases seen_append_eq_some_iff.mp hseen with hold | ⟨_, hnew⟩
    · exact hold
    · rw [hpass] at hnew
      cases hnew
  constructor
  case marked => exact fun party group k hk => h.marked party group k (hold hk)
  case spaced =>
    intro hsleep party group k k' hlt hk hk'
    exact h.spaced hsleep.of_append party group k k' hlt (hold hk) (hold hk')
  case due =>
    intro n errand hsent hpos
    rcases seen_append_eq_some_iff.mp hsent with hsent | ⟨hn, hnew⟩
    · exact (h.due n errand hsent hpos).append (Nat.le_of_lt (lt_length_of_seen hsent)) e
    · rw [hn]
      exact (hdue errand hnew hpos).append (Nat.le_refl _) e

/-- A pass of a throttle, an interval after its last one. -/
theorem PaceInv.passed (hmono : Monotone env.monotonic) (h : PaceInv env client s)
    {party : Party} {group : RateLimitGroup}
    (hwaited : SleepsAtLeast env s.log → ∀ last, s.lastCallAt party group = some last →
      last + (client.throttleOf party).interval group ≤ env.monotonic s.log.length) :
    PaceInv env client
      ((s.logged (.passed party group)).noteCall party group (env.monotonic s.log.length)) := by
  constructor
  case marked =>
    intro party' group' k hk
    rw [State.noteCall_log] at hk
    by_cases hsame : party' = party ∧ group' = group
    · obtain ⟨rfl, rfl⟩ := hsame
      have hle : k ≤ s.log.length := by
        have hlt := lt_length_of_seen hk
        rw [State.logged_log, List.length_append, List.length_singleton] at hlt
        omega
      exact ⟨_, State.noteCall_self .., hmono hle⟩
    · rw [State.noteCall_of_ne _ _ hsame]
      rcases seen_append_eq_some_iff.mp hk with hk | ⟨_, hnew⟩
      · exact h.marked party' group' k hk
      · obtain ⟨hparty, hgroup⟩ := Prod.mk.inj (Option.some.inj hnew)
        exact absurd ⟨hparty.symm, hgroup.symm⟩ hsame
  case spaced =>
    intro hsleep party' group' k k' hlt hk hk'
    have hlaw : SleepsAtLeast env s.log := SleepsAtLeast.of_append hsleep
    rcases seen_append_eq_some_iff.mp hk' with hlater | ⟨hend, hnew⟩
    · have hbefore : k < s.log.length := lt_trans hlt (lt_length_of_seen hlater)
      rw [State.noteCall_log, State.logged_log, seen_append_of_lt hbefore] at hk
      exact h.spaced hlaw party' group' k k' hlt hk hlater
    · obtain ⟨hparty, hgroup⟩ := Prod.mk.inj (Option.some.inj hnew)
      subst hparty hgroup
      rw [hend] at hlt
      rw [State.noteCall_log, State.logged_log, seen_append_of_lt hlt] at hk
      obtain ⟨last, hlast, hle⟩ := h.marked party group k hk
      calc env.monotonic k + (client.throttleOf party).interval group
          ≤ last + (client.throttleOf party).interval group := by gcongr
        _ ≤ env.monotonic s.log.length := hwaited hlaw last hlast
        _ = env.monotonic k' := by rw [hend]
  case due =>
    intro n errand hsent hpos
    rcases seen_append_eq_some_iff.mp hsent with hold | ⟨_, hnew⟩
    · exact (h.due n errand hold hpos).append (Nat.le_of_lt (lt_length_of_seen hold)) _
    · cases hnew

end Invariant

/-! ## What the client does to it -/

/-- A property of logs that only a request of another client can end. -/
def Framed (party : Party) (F : List Event → Prop) : Prop :=
  ∀ log e, (∀ errand, e.sending = some errand → errand.party = party) → F log → F (log ++ [e])

theorem framed_true (party : Party) : Framed party fun _ => True := fun _ _ _ _ => trivial

theorem framed_opened (group : RateLimitGroup) :
    Framed .oauth fun log => Opened log log.length .rest group := by
  intro log e hparty hopened
  refine hopened.append fun errand hsent hin => ?_
  cases (hparty errand hsent).symm.trans hin.1

section Programs

variable {env : Env} {client : TossRestClient} {F : List Event → Prop}

/-- An event that is neither a pass nor a request. -/
theorem PaceInv.logged_quiet {s : State} (h : PaceInv env client s) {e : Event}
    (hpass : e.passing = none) (hsent : e.sending = none) : PaceInv env client (s.logged e) := by
  refine h.logged hpass fun errand hsending => ?_
  rw [hsent] at hsending
  cases hsending

theorem Framed.quiet {party : Party} (hF : Framed party F) {log : List Event} {e : Event}
    (hsent : e.sending = none) (h : F log) : F (log ++ [e]) := by
  refine hF log e (fun errand hsending => ?_) h
  rw [hsent] at hsending
  cases hsending

theorem pause_paced (hmono : Monotone env.monotonic) {party : Party} (hF : Framed party F)
    (group : RateLimitGroup) (last : Option ℚ) :
    Program.Triple
      (fun s => PaceInv env client s ∧ F s.log ∧ s.lastCallAt party group = last)
      ((client.throttleOf party).pause env party group last)
      (fun _ s => PaceInv env client s ∧ F s.log ∧
        (SleepsAtLeast env s.log → ∀ last, s.lastCallAt party group = some last →
          last + (client.throttleOf party).interval group ≤ env.monotonic s.log.length))
      (fun _ s => PaceInv env client s) := by
  cases last with
  | none =>
    refine Program.triple_pure fun s hs => ⟨hs.1, hs.2.1, fun _ last hlast => ?_⟩
    rw [hs.2.2] at hlast
    cases hlast
  | some last =>
    refine Program.triple_bind (fun now s => (PaceInv env client s ∧ F s.log ∧
      s.lastCallAt party group = some last) ∧ now ≤ env.monotonic s.log.length) ?_ fun now => ?_
    · refine triple_readMonotonic fun s hs => ⟨⟨hs.1.logged_quiet rfl rfl, hF.quiet rfl hs.2.1,
        hs.2.2⟩, hmono ?_⟩
      simp
    · refine Program.triple_ite (fun hrest => triple_sleep ?_ ?_) fun hrest => ?_
      · intro hok s hs
        obtain ⟨⟨hinv, hframe, hlast⟩, hnow⟩ := hs
        refine ⟨hinv.logged_quiet rfl rfl, hF.quiet rfl hframe, fun hsleep last' hlast' => ?_⟩
        obtain rfl : last = last' := Option.some.inj (hlast.symm.trans hlast')
        -- The sleep makes up what was left of the interval at the reading.
        have hslept := hsleep s.log.length _ (seen_append_length _ _ _) hok
        rw [State.logged_log, List.length_append, List.length_singleton]
        unfold GroupThrottle.interval
        linarith
      · exact fun error _ s hs => hs.1.1.logged_quiet rfl rfl
      · refine Program.triple_pure fun s hs => ⟨hs.1.1, hs.1.2.1, fun _ last' hlast' => ?_⟩
        obtain rfl : last = last' := Option.some.inj (hs.1.2.2.symm.trans hlast')
        have hnow := hs.2
        unfold GroupThrottle.interval
        linarith

theorem wait_paced (hmono : Monotone env.monotonic) {party : Party} (hF : Framed party F)
    (group : RateLimitGroup) :
    Program.Triple (fun s => PaceInv env client s ∧ F s.log)
      ((client.throttleOf party).wait env party group)
      (fun _ s => PaceInv env client s ∧ F s.log ∧
        (0 < (client.throttleOf party).tps group → Opened s.log s.log.length party group))
      (fun _ s => PaceInv env client s) := by
  refine Program.triple_ite (fun hoff => ?_) fun _ => ?_
  · exact Program.triple_pure fun s hs => ⟨hs.1, hs.2, fun hpos => absurd hpos (not_lt.mpr hoff)⟩
  · refine Program.triple_bind (fun last s => PaceInv env client s ∧ F s.log ∧
      s.lastCallAt party group = last) ?_ fun last => ?_
    · exact Program.triple_read fun s hs => ⟨hs.1, hs.2, rfl⟩
    refine Program.triple_bind _ (pause_paced hmono hF group last) fun _ => ?_
    refine Program.triple_bind (fun now s => PaceInv env client (s.noteCall party group now) ∧
      F s.log ∧ Opened s.log s.log.length party group) ?_ fun now => ?_
    · refine triple_readMonotonic fun s hs => ⟨hs.1.passed hmono hs.2.2, hF.quiet rfl hs.2.1, ?_⟩
      rw [State.logged_log, List.length_append, List.length_singleton]
      exact opened_of_passed
    · exact Program.triple_modify fun s hs => ⟨hs.1, hs.2.1, fun _ => hs.2.2⟩

/-- A request of the errand may be sent. -/
def MaySend (client : TossRestClient) (errand : Errand) (log : List Event) : Prop :=
  0 < (client.throttleOf errand.party).tps errand.group →
    Due log log.length errand.party errand.group

/-- The last event is a request of the errand. -/
def JustSent (errand : Errand) (log : List Event) : Prop :=
  ∃ i, log.length = i + 1 ∧ seen Event.sending log i = some errand

/-- A sleep after a request makes the next one a retry. -/
theorem sleep_paced {errand : Errand} (hF : Framed errand.party F) (seconds : PyFloat) :
    Program.Triple (fun s => PaceInv env client s ∧ F s.log ∧ JustSent errand s.log)
      (sleep seconds)
      (fun _ s => PaceInv env client s ∧ F s.log ∧ MaySend client errand s.log)
      (fun _ s => PaceInv env client s) := by
  refine triple_sleep (fun hok s hs => ?_) fun error _ s hs => hs.1.logged_quiet rfl rfl
  refine ⟨hs.1.logged_quiet rfl rfl, hF.quiet rfl hs.2.1, fun _ => Or.inr ?_⟩
  obtain ⟨i, hi, hsent⟩ := hs.2.2
  obtain ⟨d, rfl⟩ := exists_finite_of_sleepError hok
  refine ⟨i, d, errand, ?_, ?_, ⟨rfl, rfl⟩, ?_, hok⟩
  · rw [State.logged_log, List.length_append, List.length_singleton, hi]
  · rw [State.logged_log, seen_append_of_lt (by omega)]
    exact hsent
  · rw [State.logged_log, ← hi]
    exact seen_append_length _ _ _

variable (env client) in
theorem request_paced (errand : Errand) (hF : Framed errand.party F) (http : BaseApiClient)
    (method path : String) (params : Option (List (String × PyValue)))
    (headers : List (String × String)) (data : Option (List (String × String))) :
    Program.Triple (fun s => PaceInv env client s ∧ F s.log ∧ MaySend client errand s.log)
      (http.request env errand method path params headers data)
      (fun _ s => PaceInv env client s ∧ F s.log ∧ JustSent errand s.log)
      (fun _ s => PaceInv env client s) := by
  refine BaseApiClient.triple_request
    (fun _ s => PaceInv env client s ∧ F s.log ∧ JustSent errand s.log) ?_ ?_ ?_ ?_
  · intro req _ _
    refine triple_transmit (fun _ s hs => ?_) fun error _ s hs => hs.1.logged_quiet rfl rfl
    refine ⟨hs.1.logged rfl ?_, hF _ _ ?_ hs.2.1, s.log.length, ?_, seen_append_length _ _ _⟩
    · intro errand' herrand
      cases herrand
      exact hs.2.2
    · intro errand' herrand
      cases herrand
      rfl
    · simp
  · exact fun _ _ _ s hs => hs
  · exact fun _ _ _ s hs => hs.1
  · exact fun _ _ _ _ _ => sleep_paced hF _

theorem sendWithStatusRetry_paced (errand : Errand) (hF : Framed errand.party F)
    (retry : StatusRetry) {send : Action Response}
    (hsend : Program.Triple
      (fun s => PaceInv env client s ∧ F s.log ∧ MaySend client errand s.log) send
      (fun _ s => PaceInv env client s ∧ F s.log ∧ JustSent errand s.log)
      (fun _ s => PaceInv env client s)) :
    Program.Triple (fun s => PaceInv env client s ∧ F s.log ∧ MaySend client errand s.log)
      (retry.sendWithStatusRetry send) (fun _ s => PaceInv env client s ∧ F s.log)
      (fun _ s => PaceInv env client s) := by
  refine StatusRetry.triple_sendWithStatusRetry
    (fun _ s => PaceInv env client s ∧ F s.log ∧ JustSent errand s.log) hsend ?_ ?_
  · exact fun _ s hs => ⟨hs.1, hs.2.1⟩
  · exact fun _ _ _ _ => sleep_paced hF _

theorem maySend_of_opened {errand : Errand} {log : List Event}
    (h : 0 < (client.throttleOf errand.party).tps errand.group →
      Opened log log.length errand.party errand.group) : MaySend client errand log :=
  fun hpos => Or.inl (h hpos)

theorem fetchToken_paced (hmono : Monotone env.monotonic) (hF : Framed .oauth F) :
    Program.Triple (fun s => PaceInv env client s ∧ F s.log) (client.oauth.fetchToken env)
      (fun _ s => PaceInv env client s ∧ F s.log) (fun _ s => PaceInv env client s) := by
  refine Program.triple_bind _ (wait_paced hmono hF .auth) fun _ => ?_
  refine Program.triple_bind (fun _ s => PaceInv env client s ∧ F s.log) ?_ fun response => ?_
  · have hsend := request_paced env client TossOAuthClient.errand hF
      client.oauth.http
    refine Program.Triple.conseq (sendWithStatusRetry_paced TossOAuthClient.errand hF _
      (hsend _ _ _ _ _)) ?_ (fun _ _ hs => hs) (fun _ _ hs => hs)
    exact fun s hs => ⟨hs.1, hs.2.1, maySend_of_opened hs.2.2⟩
  refine Program.triple_bind (fun _ s => PaceInv env client s ∧ F s.log) ?_ fun _ => ?_
  · exact Program.triple_lift (fun _ _ s hs => hs) fun _ _ s hs => hs.1
  refine Program.triple_bind (fun _ s => PaceInv env client s ∧ F s.log) ?_ fun parsed => ?_
  · exact Program.triple_lift (fun _ _ s hs => hs) fun _ _ s hs => hs.1
  refine Program.triple_bind (fun _ s => PaceInv env client s ∧ F s.log) ?_ fun now => ?_
  · exact triple_readClock fun s hs => ⟨hs.1.logged_quiet rfl rfl, hF.quiet rfl hs.2⟩
  refine Program.triple_bind (fun _ s => PaceInv env client s ∧ F s.log) ?_ fun expiresAt => ?_
  · exact triple_dated (fun _ _ s hs => hs) fun _ _ s hs => hs.1
  exact Program.triple_pure fun s hs => hs

/-- What the client remembers of its token does not matter. -/
theorem PaceInv.cached {s : State} (h : PaceInv env client s) (token : Option AccessToken) :
    PaceInv env client { s with cachedToken := token } where
  marked := h.marked
  spaced := h.spaced
  due := h.due

theorem validToken_paced (hmono : Monotone env.monotonic) (hF : Framed .oauth F) :
    Program.Triple (fun s => PaceInv env client s ∧ F s.log) (client.oauth.validToken env)
      (fun _ s => PaceInv env client s ∧ F s.log) (fun _ s => PaceInv env client s) := by
  refine TossOAuthClient.triple_validToken (fetchToken_paced hmono hF)
    (fun _ _ hs => ⟨hs.1.cached _, hs.2⟩) fun token => ?_
  refine Program.triple_bind (fun _ s => PaceInv env client s ∧ F s.log) ?_ fun now => ?_
  · exact triple_readClock fun s hs => ⟨hs.1.logged_quiet rfl rfl, hF.quiet rfl hs.2⟩
  refine Program.triple_bind (fun _ s => PaceInv env client s ∧ F s.log) ?_ fun limit => ?_
  · exact triple_dated (fun _ _ s hs => hs) fun _ _ s hs => hs.1
  exact Program.triple_pure fun s hs => ⟨hs, fun _ => hs⟩

/-- A round, by a property of logs that its pass brings about, that fetching a token
keeps, and that lets its request be sent. -/
theorem send_paced_of_frame (hmono : Monotone env.monotonic) (path : String)
    (params : Option (List (String × PyValue))) (requiresAccount : Bool)
    (group : RateLimitGroup) (hF : Framed .oauth F)
    (hpass : ∀ log, (0 < client.throttle.tps group → Opened log log.length .rest group) → F log)
    (hsend : ∀ log, F log → 0 < client.throttle.tps group → Due log log.length .rest group) :
    Program.Triple (PaceInv env client) (client.send env path params requiresAccount group)
      (fun _ => PaceInv env client) (fun _ => PaceInv env client) := by
  have htrue := framed_true .rest
  refine Program.triple_bind (fun _ s => PaceInv env client s ∧ F s.log) ?_ fun _ => ?_
  · refine Program.Triple.conseq (wait_paced hmono htrue group) ?_ ?_ ?_
    · exact fun s hs => ⟨hs, trivial⟩
    · exact fun _ s hs => ⟨hs.1, hpass _ hs.2.2⟩
    · exact fun _ s hs => hs
  refine Program.triple_bind _ (validToken_paced hmono hF) fun token => ?_
  refine Program.triple_bind _ (TossRestClient.accountHeader_keeps fun _ s hs => hs.1)
    fun account => ?_
  have hrequest := request_paced env client { party := .rest, group, token := some token } htrue
    client.http "GET" path params (("Authorization", "Bearer " ++ token.value) :: account) none
  refine Program.Triple.conseq (sendWithStatusRetry_paced (F := fun _ => True)
      { party := .rest, group, token := some token } htrue client.retry hrequest)
    ?_ (fun _ s hs => hs.1) (fun _ s hs => hs)
  exact fun s hs => ⟨hs.1, trivial, hsend _ hs.2⟩

/-- A round: what is fetched between its pass and its request leaves it open. -/
theorem send_paced (hmono : Monotone env.monotonic) (path : String)
    (params : Option (List (String × PyValue))) (requiresAccount : Bool)
    (group : RateLimitGroup) :
    Program.Triple (PaceInv env client) (client.send env path params requiresAccount group)
      (fun _ => PaceInv env client) (fun _ => PaceInv env client) := by
  by_cases hpos : 0 < client.throttle.tps group
  · refine send_paced_of_frame hmono path params requiresAccount group (framed_opened group) ?_ ?_
    · exact fun log hopened => hopened hpos
    · exact fun log hopened _ => Or.inl hopened
  · refine send_paced_of_frame hmono path params requiresAccount group (framed_true _) ?_ ?_
    · exact fun log _ => trivial
    · exact fun log _ hpos' => absurd hpos' hpos

theorem get_paced (hmono : Monotone env.monotonic) (path : String)
    (params : Option (List (String × PyValue))) (requiresAccount : Bool)
    (group : Option RateLimitGroup) :
    Program.Triple (PaceInv env client) (client.get env path params requiresAccount group)
      (fun _ => PaceInv env client) (fun _ => PaceInv env client) :=
  TossRestClient.get_keeps (send_paced hmono path params requiresAccount)
    (fun _ hs => hs.cached none) fun _ _ hs => hs.logged_quiet rfl rfl

theorem paceInv_of_reaches (hmono : Monotone env.monotonic) {s : State}
    (hrun : Program.Reaches (client.calls env) State.fresh s) : PaceInv env client s := by
  refine hrun.invariant (fun call hcall => ?_) paceInv_fresh
  obtain ⟨path, params, requiresAccount, group, rfl⟩ := hcall
  exact get_paced hmono path params requiresAccount group

end Programs

section Gap

variable {env : Env} {client : TossRestClient} {s : State} {i j : Nat} {first second : Errand}

theorem exists_lastPass {log : List Event} {party : Party} {group : RateLimitGroup} {n k : Nat}
    (hk : k < n) (hpass : seen Event.passing log k = some (party, group)) :
    ∃ last, LastPass log party group n last ∧ k ≤ last := by
  have hkn : k ≤ n - 1 := by omega
  have hfound := Nat.findGreatest_spec
    (P := fun m => seen Event.passing log m = some (party, group)) hkn hpass
  refine ⟨_, ⟨?_, hfound, fun m hlo hhi => ?_⟩, Nat.le_findGreatest hkn hpass⟩
  · have hle := Nat.findGreatest_le
      (P := fun m => seen Event.passing log m = some (party, group)) (n - 1)
    omega
  · exact Nat.findGreatest_is_greatest hlo (by omega)

/-- An event is a request, a sleep or a pass, and only one of these. -/
theorem not_sleeping_of_sending {log : List Event} {n : Nat} {errand : Errand}
    (hsent : seen Event.sending log n = some errand) :
    seen Event.sleeping log n = none ∧ seen Event.passing log n = none := by
  obtain ⟨e, he, hsending⟩ := seen_eq_some_iff.mp hsent
  unfold seen
  rw [he]
  cases e with
  | sent errand request outcome => exact ⟨rfl, rfl⟩
  | _ => cases hsending

/-- A paced request was let through at some time before: a retry by the pass of the
request it repeats. -/
theorem PaceInv.exists_pass (h : PaceInv env client s) {n : Nat} {errand : Errand}
    (hsent : seen Event.sending s.log n = some errand)
    (hpos : 0 < (client.throttleOf errand.party).tps errand.group) :
    ∃ k < n, seen Event.passing s.log k = some (errand.party, errand.group) := by
  induction n using Nat.strong_induction_on generalizing errand with
  | _ n ih =>
    rcases h.due n errand hsent hpos with hopened | hresent
    · obtain ⟨k, hk, hpass, _⟩ := hopened
      exact ⟨k, hk, hpass⟩
    · obtain ⟨m, d, before, hn, hbefore, hin, _, _⟩ := hresent
      rw [← hin.1, ← hin.2] at hpos ⊢
      obtain ⟨k, hk, hpass⟩ := ih m (by omega) hbefore hpos
      exact ⟨k, by omega, hpass⟩

/-- Two requests that follow each other in a group and are unhurried. -/
theorem PaceInv.gap (hmono : Monotone env.monotonic) (h : PaceInv env client s)
    (hsleep : SleepsAtLeast env s.log) (hpair : Consecutive s.log i j first second)
    (hpos : 0 < (client.throttleOf second.party).tps second.group)
    (hsteps : Unhurried env client s.log i j first second) :
    env.monotonic i + (client.throttleOf second.party).interval second.group ≤
      env.monotonic j := by
  have hlt := hpair.lt
  rcases h.due j second hpair.second_sent hpos with hopened | hresent
  · obtain ⟨k₀, hk₀, hpass₀, hnone⟩ := hopened
    obtain ⟨k, hk, hle⟩ := exists_lastPass hk₀ hpass₀
    have hkj : env.monotonic k ≤ env.monotonic j := hmono (Nat.le_of_lt hk.lt)
    rcases Nat.lt_trichotomy i k with hik | hik | hki
    · rcases hsteps.round k hk hik with ⟨hparty, hlag⟩ | hlate
      · rw [← hparty, ← hpair.same_group] at hpos
        obtain ⟨k₁, hk₁, hpass₁⟩ := h.exists_pass hpair.first_sent hpos
        obtain ⟨k', hk', _⟩ := exists_lastPass hk₁ hpass₁
        have hspaced := h.spaced hsleep _ _ k' k (lt_trans hk'.lt hik)
          (hparty ▸ hpair.same_group ▸ hk'.passed) hk.passed
        have hlag := hlag k' hk'
        linarith
      · linarith
    · have hpassed := hk.passed
      rw [← hik, (not_sleeping_of_sending hpair.first_sent).2] at hpassed
      cases hpassed
    · -- A request of the client itself would have closed the round.
      have hother : first.party ≠ second.party := fun hparty =>
        hnone i first (by omega) hlt hpair.first_sent ⟨hparty, hpair.same_group⟩
      have hanswer := hsteps.shared k hk hki hother
      have hafter : env.monotonic (i + 1) ≤ env.monotonic j := hmono hlt
      linarith
  · obtain ⟨m, d, errand, hj, hsent, hin, hslept, hok⟩ := hresent
    have him : i = m := by
      rcases Nat.lt_trichotomy i m with him | him | hmi
      · exact absurd hin.2 (hpair.between m errand him (by omega) hsent)
      · exact him
      · have hi : i = m + 1 := by omega
        rw [← hi, (not_sleeping_of_sending hpair.first_sent).1] at hslept
        cases hslept
    subst him
    have hwaited := hsleep _ d hslept hok
    have hretry := hsteps.retry d hj hslept
    rw [hj]
    linarith

end Gap

/-- In every run whose requests are unhurried, any two that follow each other in a
rate-limit group are sent at least its interval apart. -/
theorem requests_paced {env : Env} {client : TossRestClient} {s : State}
    (hmono : Monotone env.monotonic)
    (hrun : Program.Reaches (client.calls env) State.fresh s) (hsleep : SleepsAtLeast env s.log)
    (hsteps : ∀ i j first second, Consecutive s.log i j first second →
      0 < (client.throttleOf second.party).tps second.group →
      Unhurried env client s.log i j first second) :
    ∀ i j first second, Consecutive s.log i j first second →
      0 < (client.throttleOf second.party).tps second.group →
      env.monotonic i + 1 / (client.throttleOf second.party).tps second.group ≤
        env.monotonic j := by
  intro i j first second hpair hpos
  exact (paceInv_of_reaches hmono hrun).gap hmono hsleep hpair hpos
    (hsteps i j first second hpair hpos)

theorem monotone_step (n : Nat) {before after : ℚ} (h : before ≤ after) :
    Monotone fun m : Nat => if m ≤ n then before else after := by
  intro a b hab
  show (if a ≤ n then before else after) ≤ if b ≤ n then before else after
  split_ifs with ha hb
  · exact le_refl before
  · exact h
  · omega
  · exact le_refl after

/-- Two requests of a log whose requests are known. -/
theorem consecutive_of_shown {log : List Event} {shown : List (Option Errand)} {i j : Nat}
    {first second : Errand} (hshown : log.map Event.sending = shown) (hlt : i < j)
    (hfirst : shown[i]?.join = some first) (hsecond : shown[j]?.join = some second)
    (hgroup : first.group = second.group)
    (hbetween : ∀ m < shown.length, ∀ errand ∈ shown[m]?.join, i < m → m < j →
      errand.group ≠ second.group) :
    Consecutive log i j first second where
  lt := hlt
  first_sent := by rw [seen_eq_getElem?_map, hshown, hfirst]
  second_sent := by rw [seen_eq_getElem?_map, hshown, hsecond]
  same_group := hgroup
  between m errand hlo hhi hsent :=
    forall_seen (fun m errand => i < m → m < j → errand.group ≠ second.group) hshown hbetween hsent
      hlo hhi

/-- Two account calls in a row, answered at once: the second waits for a second. -/
def twoCallsEnv : Env :=
  sampleEnv (fun n => if n ≤ 7 then 0 else 1) (fun _ => 0) 3600 fun n =>
    if n = 2 then answered 200 [] (tokenBody 3600) else answered 200 [] emptyBody

def afterTwoCalls : State :=
  (sampleCall twoCallsEnv (sampleCall twoCallsEnv State.fresh).2).2

theorem two_calls_paced :
    twoCallsEnv.monotonic 4 + 1 / (sampleClient.throttleOf .rest).tps .account ≤
      twoCallsEnv.monotonic 10 := by
  have hsent : afterTwoCalls.log.map Event.sending = [none, none, some TossOAuthClient.errand,
      none, some sampleErrand, none, none, none, none, none, some sampleErrand, none] := by
    decide +kernel
  have hpassed : afterTwoCalls.log.map Event.passing = [some (.rest, .account),
      some (.oauth, .auth), none, none, none, none, none, none, some (.rest, .account), none,
      none, none] := by
    decide +kernel
  have hslept : afterTwoCalls.log.map Event.sleeping = [none, none, none, none, none, none, none,
      some (.finite 1), none, none, none, none] := by
    decide +kernel
  have hrun : Program.Reaches (sampleClient.calls twoCallsEnv) State.fresh afterTwoCalls :=
    (reaches_sampleCall twoCallsEnv).tail ⟨sampleCall twoCallsEnv, ⟨_, _, _, _, rfl⟩, rfl⟩
  have hsent_at : ∀ n errand, seen Event.sending afterTwoCalls.log n = some errand →
      n = 2 ∧ errand = TossOAuthClient.errand ∨ (n = 4 ∨ n = 10) ∧ errand = sampleErrand :=
    fun n errand => forall_seen (fun n errand => n = 2 ∧ errand = TossOAuthClient.errand ∨
      (n = 4 ∨ n = 10) ∧ errand = sampleErrand) hsent (by decide +kernel)
  have hpassed_at : ∀ n, seen Event.passing afterTwoCalls.log n = some (.rest, .account) →
      n = 0 ∨ n = 8 := by
    intro n hseen
    exact forall_seen (fun n pass => pass = (Party.rest, RateLimitGroup.account) → n = 0 ∨ n = 8)
      hpassed (by decide +kernel) hseen rfl
  have hmono : Monotone twoCallsEnv.monotonic := monotone_step 7 (by decide +kernel)
  refine requests_paced hmono hrun ?_ ?_ 4 10 sampleErrand sampleErrand ?_ (by decide +kernel)
  · intro n d hseen _
    obtain ⟨hn, hd⟩ := forall_seen (fun n d => n = 7 ∧ d = PyFloat.finite 1) hslept
      (by decide +kernel) hseen
    cases hd
    rw [hn]
    decide +kernel
  · intro i j first second hpair _
    have hlt := hpair.lt
    have hgroup := hpair.same_group
    rcases hsent_at i first hpair.first_sent with ⟨hi, rfl⟩ | ⟨hi, rfl⟩
    · rcases hsent_at j second hpair.second_sent with ⟨hj, rfl⟩ | ⟨hj, rfl⟩
      · omega
      · cases hgroup
    · rcases hsent_at j second hpair.second_sent with ⟨hj, rfl⟩ | ⟨hj, rfl⟩
      · cases hgroup
      · obtain rfl : i = 4 := by omega
        obtain rfl : j = 10 := by omega
        constructor
        case retry => exact fun d hj => by omega
        case shared => exact fun k _ _ hne => absurd rfl hne
        case round =>
          intro k hk hik
          have hk8 : k = 8 := by
            have := hpassed_at k hk.passed
            omega
          refine Or.inl ⟨rfl, fun k' hk' => ?_⟩
          have hk0 : k' = 0 := by
            have hlt' := hk'.lt
            have := hpassed_at k' hk'.passed
            omega
          rw [hk8, hk0]
          decide +kernel
  · exact consecutive_of_shown hsent (by decide) rfl rfl rfl (by decide +kernel)

/-- An account call whose first answer is a 503: it is repeated after half a second,
in a group of one request a second. -/
def retriedCallEnv : Env :=
  sampleEnv (fun n => if n ≤ 5 then 0 else 1 / 2) (fun _ => 0) 3600 fun n =>
    if n = 2 then answered 200 [] (tokenBody 3600)
    else if n = 4 then answered 503 [] [] else answered 200 [] emptyBody

def afterRetriedCall : State := (sampleCall retriedCallEnv State.fresh).2

theorem retry_sent_too_early :
    ¬ ∀ (env : Env) (client : TossRestClient) (s : State), Monotone env.monotonic →
        Program.Reaches (client.calls env) State.fresh s → SleepsAtLeast env s.log →
        ∀ i j first second, Consecutive s.log i j first second →
          0 < (client.throttleOf second.party).tps second.group →
          env.monotonic i + 1 / (client.throttleOf second.party).tps second.group ≤
            env.monotonic j := by
  intro hpaced
  have hsent : afterRetriedCall.log.map Event.sending = [none, none, some TossOAuthClient.errand,
      none, some sampleErrand, none, some sampleErrand, none] := by
    decide +kernel
  have hslept : afterRetriedCall.log.map Event.sleeping = [none, none, none, none, none,
      some (.finite (1 / 2)), none, none] := by
    decide +kernel
  have hsleeps : SleepsAtLeast retriedCallEnv afterRetriedCall.log := by
    intro n d hseen _
    obtain ⟨hn, hd⟩ := forall_seen (fun n d => n = 5 ∧ d = PyFloat.finite (1 / 2)) hslept
      (by decide +kernel) hseen
    cases hd
    rw [hn]
    decide +kernel
  have hpair : Consecutive afterRetriedCall.log 4 6 sampleErrand sampleErrand :=
    consecutive_of_shown hsent (by decide) rfl rfl rfl (by decide +kernel)
  have hmono : Monotone retriedCallEnv.monotonic := monotone_step 5 (by decide +kernel)
  have hgap := hpaced retriedCallEnv sampleClient afterRetriedCall hmono
    (reaches_sampleCall retriedCallEnv) hsleeps 4 6 sampleErrand sampleErrand hpair
    (by decide +kernel)
  exact absurd hgap (by decide +kernel)

end Toss
end QuantPlatform
