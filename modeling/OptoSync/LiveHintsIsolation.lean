import OptoSync.LiveHints

/-!
# Isolation of sessions

What the hints do after a switch belongs to the session that was switched to, as long as no token of
another session arrives: a refresh sets the token of its own session whenever it gets it.
-/
namespace OptoSync.LiveHints

open Reactive Transition
open Reactive.Dart (SyncSession sameSession)

section
variable (host : JsonHost) (trim : String → String) (retryAttempts : ℕ)

/-- The session that an output belongs to. -/
def Output.partition : Output → String
  | .setAuth identity _ => host.transportSessionKey identity
  | .channel identity => host.transportSessionKey identity
  | .hint sent => sent.sessionPartition

/-- A session that is not authenticated has no key. -/
def keyOf (session : SyncSession) : Option String :=
  (requireAuthenticated session).map host.transportSessionKey

namespace Hints

def sessionKey (s : Hints) : Option String := s.session.bind (keyOf host)

/-- The last step did nothing for another session. -/
def Isolated (s : Hints) : Prop := ∀ o ∈ s.outputs, s.sessionKey host = some (o.partition host)

/-- A valid token arrives for a session that is not the current one. -/
def ForeignToken (s : Hints) (event : Event) : Prop :=
  ∃ refresh token identity, event = .tokenAnswer refresh (some token) ∧
    validToken trim token = true ∧ s.refreshes[refresh]? = some { identity, stage := .token } ∧
    s.sessionKey host ≠ some (host.transportSessionKey identity)

/-- The current session is not authenticated, but the channel of the previous one is still open or
opens. -/
def Lingers (s : Hints) (event : Event) : Prop :=
  s.sessionKey host = none ∧
    ((∃ channel decoded identity, event = .payload channel (some decoded) ∧
        s.channels[channel]? = some { identity, isOpen := true }) ∨
      ∃ refresh creation identity, event = .authAnswer refresh true creation ∧
        s.refreshes[refresh]? = some { identity, stage := .auth } ∧ s.phase = .refreshing refresh)

/-- The stream of the session, its refresh and its channel belong to the current session, if this
is authenticated. -/
structure Consistent (s : Hints) : Prop where
  owner : ∀ key, s.sessionKey host = some key → s.phase ≠ .idle →
    s.identity.map host.transportSessionKey = some key
  refresh : ∀ n, s.phase = .refreshing n → ∃ r, s.refreshes[n]? = some r ∧ s.identity = some r.identity
  channel : ∀ n c, s.channels[n]? = some c → c.isOpen = true →
    s.phase = .connected n ∧ s.identity = some c.identity
  idle : s.listening = false → s.phase = .idle

end Hints

namespace Hints

@[simp] theorem tearDown_session (s : Hints) : s.tearDown.session = s.session := by
  unfold tearDown
  split <;> rfl

@[simp] theorem tearDown_outputs (s : Hints) : s.tearDown.outputs = s.outputs := by
  unfold tearDown
  split <;> rfl

@[simp] theorem tearDown_phase (s : Hints) : s.tearDown.phase = .idle := by
  unfold tearDown
  split <;> rfl

@[simp] theorem tearDown_identity (s : Hints) : s.tearDown.identity = s.identity := by
  unfold tearDown
  split <;> rfl

@[simp] theorem tearDown_previous (s : Hints) : s.tearDown.previous = s.previous := by
  unfold tearDown
  split <;> rfl

@[simp] theorem tearDown_listening (s : Hints) : s.tearDown.listening = s.listening := by
  unfold tearDown
  split <;> rfl

@[simp] theorem tearDown_refreshes (s : Hints) : s.tearDown.refreshes = s.refreshes := by
  unfold tearDown
  split <;> rfl

@[simp] theorem attemptFailed_session (closes : Bool) (s : Hints) :
    (s.attemptFailed retryAttempts closes).session = s.session := by
  unfold attemptFailed
  split <;> simp

@[simp] theorem attemptFailed_outputs (closes : Bool) (s : Hints) :
    (s.attemptFailed retryAttempts closes).outputs = s.outputs := by
  unfold attemptFailed
  split <;> simp

@[simp] theorem openChannel_session (closes : Bool) (s : Hints) (identity : SyncSessionIdentity)
    (creation : Creation) :
    (s.openChannel retryAttempts closes identity creation).session = s.session := by
  cases creation <;> simp [openChannel]

@[simp] theorem openChannel_outputs (closes : Bool) (s : Hints) (identity : SyncSessionIdentity)
    (creation : Creation) :
    (s.openChannel retryAttempts closes identity creation).outputs = [.channel identity] := by
  cases creation <;> simp [openChannel]

variable {host trim retryAttempts}

theorem isolated_of_outputs {s : Hints} (h : s.outputs = []) : s.Isolated host := by
  intro o ho
  simp [h] at ho

theorem isolated_singleton {s : Hints} {o : Output} (h : s.outputs = [o]) :
    s.Isolated host ↔ s.sessionKey host = some (o.partition host) := by
  simp [Isolated, h]

theorem sessionKey_congr {s t : Hints} (h : s.session = t.session) :
    s.sessionKey host = t.sessionKey host := by
  rw [sessionKey, sessionKey, h]

theorem onToken_isolated {s : Hints} (closes : Bool) (refresh : ℕ) (answer : Option String)
    (hquiet : s.outputs = []) :
    (s.onToken trim retryAttempts closes refresh answer).Isolated host ↔
      ¬s.ForeignToken host trim (.tokenAnswer refresh answer) := by
  unfold onToken
  split
  · rename_i identity hrefresh
    split
    · rename_i token htoken
      obtain ⟨rfl, hvalid⟩ := Option.filter_eq_some_iff.mp htoken
      rw [isolated_singleton rfl]
      constructor
      · rintro hkey ⟨_, _, i, hevent, -, hr, hforeign⟩
        cases hevent
        rw [hrefresh] at hr
        cases hr
        exact hforeign hkey
      · intro h
        by_contra hkey
        exact h ⟨refresh, token, identity, rfl, hvalid, hrefresh, hkey⟩
    · rename_i hnone
      refine iff_of_true (isolated_of_outputs ?_) ?_
      · dsimp only
        split <;> simp [setStage, hquiet]
      · rintro ⟨_, token, i, hevent, hvalid, -⟩
        cases hevent
        simp [Option.filter, hvalid] at hnone
  · rename_i hother
    refine iff_of_true (isolated_of_outputs hquiet) ?_
    rintro ⟨_, token, i, hevent, -, hr, -⟩
    cases hevent
    exact hother i hr

/-- What an attempt does belongs to the current session, or there is none. -/
theorem Consistent.current {s : Hints} (hs : s.Consistent host) (hphase : s.phase ≠ .idle)
    {identity : SyncSessionIdentity} (hidentity : s.identity = some identity) :
    s.sessionKey host = some (host.transportSessionKey identity) ↔ s.sessionKey host ≠ none := by
  constructor
  · intro h
    simp [h]
  · intro h
    obtain ⟨key, hkey⟩ := Option.ne_none_iff_exists'.mp h
    have howner := hs.owner key hkey hphase
    rw [hidentity, Option.map_some] at howner
    rw [hkey, howner]

theorem not_foreignToken {s : Hints} {event : Event}
    (h : ∀ refresh token, event ≠ .tokenAnswer refresh token) :
    ¬s.ForeignToken host trim event := by
  rintro ⟨refresh, token, -, hevent, -⟩
  exact h _ _ hevent

theorem onAuth_isolated {s : Hints} (hs : s.Consistent host) (closes : Bool) (refresh : ℕ)
    (succeeds : Bool) (creation : Creation) (hquiet : s.outputs = []) :
    (s.onAuth retryAttempts closes refresh succeeds creation).Isolated host ↔
      ¬s.Lingers host (.authAnswer refresh succeeds creation) := by
  by_cases hopens : succeeds = true ∧ s.phase = .refreshing refresh ∧
      ∃ identity, s.refreshes[refresh]? = some { identity, stage := .auth }
  case pos =>
    obtain ⟨rfl, hphase, identity, hrefresh⟩ := hopens
    obtain ⟨r, hr, hidentity⟩ := hs.refresh refresh hphase
    obtain rfl : ({ identity, stage := .auth } : Refresh) = r := by
      rw [hrefresh] at hr
      exact Option.some.inj hr
    have hopened : s.onAuth retryAttempts closes refresh true creation =
        (s.setStage refresh .done).openChannel retryAttempts closes identity creation := by
      simp [onAuth, hrefresh, setStage, hphase]
    have hcurrent := hs.current (by simp [hphase]) hidentity
    rw [hopened, isolated_singleton (openChannel_outputs retryAttempts closes _ _ _),
      sessionKey_congr (openChannel_session retryAttempts closes _ _ _)]
    refine hcurrent.trans ⟨fun hkey h => hkey h.1, fun h hkey => h ⟨hkey, .inr ?_⟩⟩
    exact ⟨refresh, creation, identity, rfl, hrefresh, hphase⟩
  case neg =>
    refine iff_of_true (isolated_of_outputs ?_) ?_
    · unfold onAuth
      split
      · rename_i identity hrefresh
        dsimp only
        split
        · rename_i hphase
          split
          · rename_i hsucceeds
            exact absurd ⟨hsucceeds, hphase, identity, hrefresh⟩ hopens
          · simp [setStage, hquiet]
        · exact hquiet
      · exact hquiet
    · rintro ⟨-, ⟨_, _, _, hevent, -⟩ | ⟨_, _, identity, hevent, hrefresh, hphase⟩⟩
      · cases hevent
      · cases hevent
        exact hopens ⟨rfl, hphase, identity, hrefresh⟩

theorem onPayload_isolated {s : Hints} (hs : s.Consistent host) (closes : Bool) (channel : ℕ)
    (decoded : Option DecodedSyncHint) (hquiet : s.outputs = []) :
    (s.onPayload host retryAttempts closes channel decoded).Isolated host ↔
      ¬s.Lingers host (.payload channel decoded) := by
  unfold onPayload
  split
  · rename_i identity hchannel
    obtain ⟨hphase, hidentity⟩ := hs.channel channel _ hchannel rfl
    split
    · rename_i hint
      have hcurrent := hs.current (by simp [hphase]) hidentity
      rw [isolated_singleton rfl]
      refine hcurrent.trans ⟨fun hkey h => hkey h.1, fun h hkey => h ⟨hkey, .inl ?_⟩⟩
      exact ⟨channel, hint, identity, rfl, hchannel⟩
    · refine iff_of_true (isolated_of_outputs (by simp [hquiet])) ?_
      rintro ⟨-, ⟨_, _, _, hevent, -⟩ | ⟨_, _, _, hevent, -⟩⟩ <;> cases hevent
  · rename_i hother
    refine iff_of_true (isolated_of_outputs hquiet) ?_
    rintro ⟨-, ⟨_, _, identity, hevent, hchannel⟩ | ⟨_, _, _, hevent, -⟩⟩
    · cases hevent
      exact hother identity hchannel
    · cases hevent

theorem not_lingers {s : Hints} {event : Event} (h₁ : ∀ c d, event ≠ .payload c d)
    (h₂ : ∀ r b c, event ≠ .authAnswer r b c) : ¬s.Lingers host event := by
  rintro ⟨-, ⟨_, _, _, hevent, -⟩ | ⟨_, _, _, hevent, -⟩⟩
  · exact h₁ _ _ hevent
  · exact h₂ _ _ _ hevent

/-- A step is isolated unless it delivers a foreign token or serves a channel that lingers. -/
theorem step_isolated {s : Hints} (hs : s.Consistent host) (closes : Bool)
    {switchTo : Hints → SyncSession → Hints}
    (hswitch : ∀ s session, (switchTo s session).outputs = s.outputs) (event : Event) :
    (s.step host trim retryAttempts closes switchTo event).Isolated host ↔
      ¬s.ForeignToken host trim event ∧ ¬s.Lingers host event := by
  have hquiet : ∀ {t : Hints}, t.outputs = [] → (∀ r k, event ≠ .tokenAnswer r k) →
      (∀ c d, event ≠ .payload c d) → (∀ r b c, event ≠ .authAnswer r b c) →
      (t.Isolated host ↔ ¬s.ForeignToken host trim event ∧ ¬s.Lingers host event) :=
    fun ht h₁ h₂ h₃ => iff_of_true (isolated_of_outputs ht) ⟨not_foreignToken h₁, not_lingers h₂ h₃⟩
  have hsilent : Consistent host { s with outputs := [] } :=
    ⟨hs.owner, hs.refresh, hs.channel, hs.idle⟩
  cases event with
  | session session =>
    refine hquiet ?_ (by simp) (by simp) (by simp)
    dsimp only [step]
    split
    · rw [hswitch]
    · rfl
  | subscribe replays =>
    refine hquiet ?_ (by simp) (by simp) (by simp)
    dsimp only [step]
    split
    · rfl
    · split
      · rw [hswitch]
      · rfl
  | leave =>
    refine hquiet ?_ (by simp) (by simp) (by simp)
    simp [step]
  | tokenAnswer refresh token =>
    have hlingers : ¬s.Lingers host (.tokenAnswer refresh token) :=
      not_lingers (by simp) (by simp)
    rw [and_iff_left hlingers]
    exact onToken_isolated closes refresh token rfl
  | authAnswer refresh succeeds creation =>
    have hforeign : ¬s.ForeignToken host trim (.authAnswer refresh succeeds creation) :=
      not_foreignToken (by simp)
    rw [and_iff_right hforeign]
    exact onAuth_isolated hsilent closes refresh succeeds creation rfl
  | payload channel decoded =>
    have hforeign : ¬s.ForeignToken host trim (.payload channel decoded) :=
      not_foreignToken (by simp)
    rw [and_iff_right hforeign]
    exact onPayload_isolated hsilent closes channel decoded rfl
  | failure channel =>
    refine hquiet ?_ (by simp) (by simp) (by simp)
    dsimp only [step, onFailure]
    split <;> simp
  | retry =>
    refine hquiet ?_ (by simp) (by simp) (by simp)
    dsimp only [step, onRetry]
    split <;> rfl

/-- No channel is open. -/
def Closed (s : Hints) : Prop := ∀ c ∈ s.channels, c.isOpen = false

theorem Consistent.closed {s : Hints} (hs : s.Consistent host)
    (hphase : ∀ n, s.phase ≠ .connected n) : s.Closed := by
  intro c hc
  obtain ⟨n, hc⟩ := List.mem_iff_getElem?.mp hc
  by_contra hopen
  exact hphase n (hs.channel n c hc (by simpa using hopen)).1

theorem tearDown_closed {s : Hints}
    (h : ∀ n c, s.channels[n]? = some c → c.isOpen = true → s.phase = .connected n) :
    s.tearDown.Closed := by
  intro c hc
  obtain ⟨n, hc⟩ := List.mem_iff_getElem?.mp hc
  by_contra hopen
  unfold tearDown at hc
  split at hc
  · rename_i channel hphase
    rw [List.getElem?_modify] at hc
    obtain ⟨d, hd, rfl⟩ := Option.map_eq_some_iff.mp hc
    by_cases hn : channel = n
    · simp [hn] at hopen
    · rw [if_neg hn] at hopen
      have hconnected := h n d hd (by simpa using hopen)
      rw [hphase] at hconnected
      exact hn (Phase.connected.inj hconnected)
  · rename_i hphase
    exact hphase n (h n c hc (by simpa using hopen))

theorem Consistent.connected {s : Hints} (hs : s.Consistent host) (n : ℕ) (c : Channel)
    (hc : s.channels[n]? = some c) (hopen : c.isOpen = true) : s.phase = .connected n :=
  (hs.channel n c hc hopen).1

theorem Consistent.tearDown_closed {s : Hints} (hs : s.Consistent host) : s.tearDown.Closed :=
  Hints.tearDown_closed hs.connected

theorem Consistent.listening_of_active {s : Hints} (hs : s.Consistent host) (h : s.phase ≠ .idle) :
    s.listening = true := by
  by_contra hlistening
  exact h (hs.idle (by simpa using hlistening))

theorem consistent_of_idle {s : Hints} (hphase : s.phase = .idle) (hclosed : s.Closed) :
    s.Consistent host where
  owner _ _ h := absurd hphase h
  refresh n h := by
    rw [hphase] at h
    cases h
  channel n c hc hopen := by
    rw [hclosed c (List.mem_of_getElem? hc)] at hopen
    cases hopen
  idle _ := hphase

/-- A new attempt for the identity of the current session. -/
theorem startAttempt_consistent {s : Hints} {identity : SyncSessionIdentity}
    (hidentity : s.identity = some identity) (hlistening : s.listening = true) (hclosed : s.Closed)
    (howner : ∀ key, s.sessionKey host = some key → host.transportSessionKey identity = key) :
    (s.startAttempt identity).Consistent host where
  owner key hkey _ := by
    have hstart : (s.startAttempt identity).identity = some identity := hidentity
    rw [hstart, Option.map_some, howner key hkey]
  refresh n h := by
    obtain rfl := Phase.refreshing.inj h
    exact ⟨{ identity, stage := .token }, List.getElem?_concat_length, hidentity⟩
  channel n c hc hopen := by
    rw [hclosed c (List.mem_of_getElem? hc)] at hopen
    cases hopen
  idle h := by
    rw [startAttempt, hlistening] at h
    cases h

theorem attemptFailed_consistent {s : Hints} (hs : s.Consistent host) (closes : Bool)
    (hphase : s.phase ≠ .idle) : (s.attemptFailed retryAttempts closes).Consistent host := by
  have hkey : s.tearDown.sessionKey host = s.sessionKey host :=
    sessionKey_congr (tearDown_session s)
  have hlistening := hs.listening_of_active hphase
  unfold attemptFailed
  split
  · refine ⟨fun key h _ => ?_, fun n h => (by cases h), fun n c hc hopen => ?_, fun h => ?_⟩
    · exact (congrArg _ (tearDown_identity s)).trans (hs.owner key (hkey.symm.trans h) hphase)
    · rw [hs.tearDown_closed c (List.mem_of_getElem? hc)] at hopen
      cases hopen
    · exact absurd ((tearDown_listening s).symm.trans h) (by simp [hlistening])
  · exact consistent_of_idle (tearDown_phase s) hs.tearDown_closed

theorem setStage_consistent {s : Hints} (hs : s.Consistent host) (refresh : ℕ) (stage : Stage) :
    (s.setStage refresh stage).Consistent host where
  owner := hs.owner
  refresh n h := by
    obtain ⟨r, hr, hidentity⟩ := hs.refresh n h
    refine ⟨if refresh = n then { r with stage } else r, ?_, ?_⟩
    · rw [setStage, List.getElem?_modify, hr]
      split <;> rfl
    · split <;> exact hidentity
  channel := hs.channel
  idle := hs.idle

theorem outputs_consistent {s : Hints} (hs : s.Consistent host) (outputs : List Output) :
    Consistent host { s with outputs } :=
  ⟨hs.owner, hs.refresh, hs.channel, hs.idle⟩

theorem openChannel_consistent {s : Hints} (hs : s.Consistent host) (closes : Bool) {refresh : ℕ}
    (hphase : s.phase = .refreshing refresh) {identity : SyncSessionIdentity}
    (hidentity : s.identity = some identity) (creation : Creation) :
    (s.openChannel retryAttempts closes identity creation).Consistent host := by
  have hactive : s.phase ≠ .idle := by simp [hphase]
  have hclosed := hs.closed (by simp [hphase])
  cases creation with
  | factoryThrows => exact attemptFailed_consistent (outputs_consistent hs _) closes hactive
  | subscribeThrows =>
    refine attemptFailed_consistent ?_ closes hactive
    refine ⟨hs.owner, hs.refresh, fun n c hc hopen => ?_, hs.idle⟩
    obtain hc | hc := List.mem_append.mp (List.mem_of_getElem? hc)
    · rw [hclosed c hc] at hopen
      cases hopen
    · obtain rfl := List.mem_singleton.mp hc
      cases hopen
  | subscribed =>
    refine ⟨fun key hkey _ => hs.owner key hkey hactive, fun n h => (by cases h),
      fun n c hc hopen => ?_, fun h => absurd (hs.idle h) hactive⟩
    by_cases hn : n < s.channels.length
    · rw [openChannel, List.getElem?_append_left hn] at hc
      rw [hclosed c (List.mem_of_getElem? hc)] at hopen
      cases hopen
    · rw [openChannel, List.getElem?_append_right (Nat.le_of_not_lt hn)] at hc
      obtain ⟨hlast, rfl⟩ := List.getElem?_eq_some_iff.mp hc
      have hn : n = s.channels.length := by
        simp only [List.length_singleton] at hlast
        omega
      subst hn
      simp [openChannel, hidentity]

theorem onToken_consistent {s : Hints} (hs : s.Consistent host) (closes : Bool) (refresh : ℕ)
    (answer : Option String) : (s.onToken trim retryAttempts closes refresh answer).Consistent host := by
  unfold onToken
  split
  · split
    · exact outputs_consistent (setStage_consistent hs _ _) _
    · dsimp only
      split
      · rename_i hphase
        exact attemptFailed_consistent (setStage_consistent hs _ _) closes (by simp [hphase])
      · exact setStage_consistent hs _ _
  · exact hs

theorem onAuth_consistent {s : Hints} (hs : s.Consistent host) (closes : Bool) (refresh : ℕ)
    (succeeds : Bool) (creation : Creation) :
    (s.onAuth retryAttempts closes refresh succeeds creation).Consistent host := by
  unfold onAuth
  split
  · rename_i identity hrefresh
    have hdone := setStage_consistent hs refresh .done
    dsimp only
    split
    · rename_i hphase
      split
      · obtain ⟨r, hr, hidentity⟩ := hs.refresh refresh hphase
        obtain rfl : ({ identity, stage := .auth } : Refresh) = r := by
          rw [hrefresh] at hr
          exact Option.some.inj hr
        exact openChannel_consistent hdone closes hphase hidentity creation
      · exact attemptFailed_consistent hdone closes (by simp [hphase])
    · exact hdone
  · exact hs

theorem failed_consistent {s : Hints} (hs : s.Consistent host) (closes : Bool) {channel : ℕ}
    {identity : SyncSessionIdentity}
    (hchannel : s.channels[channel]? = some { identity, isOpen := true }) :
    (s.attemptFailed retryAttempts closes).Consistent host := by
  refine attemptFailed_consistent hs closes ?_
  simp [(hs.channel channel _ hchannel rfl).1]

theorem onPayload_consistent {s : Hints} (hs : s.Consistent host) (closes : Bool) (channel : ℕ)
    (decoded : Option DecodedSyncHint) :
    (s.onPayload host retryAttempts closes channel decoded).Consistent host := by
  unfold onPayload
  split
  · rename_i identity hchannel
    split
    · exact outputs_consistent hs _
    · exact failed_consistent hs closes hchannel
  · exact hs

theorem onFailure_consistent {s : Hints} (hs : s.Consistent host) (closes : Bool) (channel : ℕ) :
    (s.onFailure retryAttempts closes channel).Consistent host := by
  unfold onFailure
  split
  · rename_i hchannel
    exact failed_consistent hs closes hchannel
  · exact hs

theorem onRetry_consistent {s : Hints} (hs : s.Consistent host) : s.onRetry.Consistent host := by
  unfold onRetry
  split
  · rename_i identity hphase hidentity
    have hactive : s.phase ≠ .idle := by simp [hphase]
    have hlistening := hs.listening_of_active hactive
    refine startAttempt_consistent hidentity hlistening (hs.closed (by simp [hphase]))
      fun key hkey => ?_
    have howner := hs.owner key hkey hactive
    rw [hidentity, Option.map_some] at howner
    exact Option.some.inj howner
  · exact hs

theorem leave_consistent {s : Hints} (hs : s.Consistent host) :
    Consistent host { s.tearDown with listening := false } :=
  consistent_of_idle (tearDown_phase s) hs.tearDown_closed

/-- The stream of a session that was switched to. -/
theorem connect_consistent {s : Hints} {session : SyncSession} {identity : SyncSessionIdentity}
    (hidentity : requireAuthenticated session = some identity) (hsession : s.session = some session)
    (hclosed : s.Closed) (hlistening : s.listening = true) :
    (s.connect identity).Consistent host := by
  refine startAttempt_consistent rfl hlistening hclosed fun key hkey => ?_
  have hcurrent : s.sessionKey host = some (host.transportSessionKey identity) := by
    simp [sessionKey, hsession, keyOf, hidentity]
  exact Option.some.inj (hcurrent.symm.trans hkey)

/-- While nobody listens a session changes nothing but the session. -/
theorem Consistent.away {s : Hints} (hs : s.Consistent host) (h : s.listening = false)
    (session : SyncSession) : Consistent host { s with session := some session } :=
  consistent_of_idle (hs.idle h) (hs.closed (by simp [hs.idle h]))

/-- An event that is neither a session nor a first subscriber. -/
def Inner (event : Event) : Prop :=
  (∀ session, event ≠ .session session) ∧ ∀ replays, event ≠ .subscribe replays

theorem inner_consistent {s : Hints} (hs : s.Consistent host) (closes : Bool)
    {switchTo : Hints → SyncSession → Hints} {event : Event} (hinner : Inner event) :
    (s.step host trim retryAttempts closes switchTo event).Consistent host := by
  have hquiet := outputs_consistent hs []
  cases event with
  | session session => exact absurd rfl (hinner.1 session)
  | subscribe replays => exact absurd rfl (hinner.2 replays)
  | leave => exact leave_consistent hquiet
  | tokenAnswer refresh token => exact onToken_consistent hquiet closes refresh token
  | authAnswer refresh succeeds creation =>
    exact onAuth_consistent hquiet closes refresh succeeds creation
  | payload channel decoded => exact onPayload_consistent hquiet closes channel decoded
  | failure channel => exact onFailure_consistent hquiet closes channel
  | retry => exact onRetry_consistent hquiet

/-- What only a switch changes: the session, and the last session let through. A stream that is
idle stays so, and nobody starts to listen. -/
structure Frame (s t : Hints) : Prop where
  session : t.session = s.session
  previous : t.previous = s.previous
  listening : t.listening = true → s.listening = true
  idle : s.phase = .idle → t.phase = .idle

theorem Frame.trans {s t u : Hints} (h : s.Frame t) (g : t.Frame u) : s.Frame u :=
  ⟨g.session.trans h.session, g.previous.trans h.previous, h.listening ∘ g.listening,
    g.idle ∘ h.idle⟩

theorem attemptFailed_frame (closes : Bool) {s : Hints} (h : s.phase ≠ .idle) :
    s.Frame (s.attemptFailed retryAttempts closes) := by
  unfold attemptFailed
  split
  · exact ⟨tearDown_session s, tearDown_previous s, fun h => (tearDown_listening s) ▸ h,
      fun hidle => absurd hidle h⟩
  · refine ⟨tearDown_session s, tearDown_previous s, fun h => ?_, fun hidle => absurd hidle h⟩
    exact (Bool.and_eq_true _ _ ▸ h : _ ∧ _).1

theorem setStage_frame (s : Hints) (refresh : ℕ) (stage : Stage) :
    s.Frame (s.setStage refresh stage) := ⟨rfl, rfl, id, id⟩

theorem openChannel_frame (closes : Bool) {s : Hints} (h : s.phase ≠ .idle)
    (identity : SyncSessionIdentity) (creation : Creation) :
    s.Frame (s.openChannel retryAttempts closes identity creation) := by
  cases creation with
  | factoryThrows =>
    have hcalled : s.Frame { s with outputs := [.channel identity] } := ⟨rfl, rfl, id, id⟩
    exact hcalled.trans (attemptFailed_frame closes h)
  | subscribeThrows =>
    have hcalled : s.Frame { s with
        outputs := [.channel identity]
        channels := s.channels ++ [{ identity, isOpen := false }] } := ⟨rfl, rfl, id, id⟩
    exact hcalled.trans (attemptFailed_frame closes h)
  | subscribed => exact ⟨rfl, rfl, id, fun hidle => absurd hidle h⟩

theorem inner_frame {s : Hints} (hs : s.Consistent host) (closes : Bool)
    {switchTo : Hints → SyncSession → Hints} {event : Event} (hinner : Inner event) :
    s.Frame (s.step host trim retryAttempts closes switchTo event) := by
  have hquiet : s.Frame { s with outputs := [] } := ⟨rfl, rfl, id, id⟩
  refine hquiet.trans ?_
  cases event with
  | session session => exact absurd rfl (hinner.1 session)
  | subscribe replays => exact absurd rfl (hinner.2 replays)
  | leave =>
    exact ⟨tearDown_session _, tearDown_previous _, fun h => Bool.noConfusion h,
      fun _ => tearDown_phase _⟩
  | tokenAnswer refresh token =>
    dsimp only [step, onToken]
    split
    · split
      · exact ⟨rfl, rfl, id, id⟩
      · split
        · rename_i hphase
          exact (setStage_frame _ refresh .done).trans (attemptFailed_frame closes (by simp [hphase]))
        · exact setStage_frame _ _ _
    · exact ⟨rfl, rfl, id, id⟩
  | authAnswer refresh succeeds creation =>
    dsimp only [step, onAuth]
    split
    · split
      · rename_i hphase
        have hactive : ∀ t : Hints, t.phase = .refreshing refresh → t.phase ≠ .idle := by
          intro t ht
          simp [ht]
        refine (setStage_frame _ refresh .done).trans ?_
        split
        · exact openChannel_frame closes (hactive _ hphase) _ creation
        · exact attemptFailed_frame closes (hactive _ hphase)
      · exact setStage_frame _ _ _
    · exact ⟨rfl, rfl, id, id⟩
  | payload channel decoded =>
    dsimp only [step, onPayload]
    split
    · rename_i identity hchannel
      split
      · exact ⟨rfl, rfl, id, id⟩
      · exact attemptFailed_frame closes (by simp [(hs.channel channel _ hchannel rfl).1])
    · exact ⟨rfl, rfl, id, id⟩
  | failure channel =>
    dsimp only [step, onFailure]
    split
    · rename_i hchannel
      exact attemptFailed_frame closes (by simp [(hs.channel channel _ hchannel rfl).1])
    · exact ⟨rfl, rfl, id, id⟩
  | retry =>
    dsimp only [step, onRetry]
    split
    · rename_i hphase _
      exact ⟨rfl, rfl, id, fun hidle => absurd (hphase.symm.trans hidle) (by simp)⟩
    · exact ⟨rfl, rfl, id, id⟩

end Hints

variable {host trim retryAttempts}

namespace TypeScript

/-- Where the session is not authenticated nothing runs. -/
structure Invariant (host : JsonHost) (s : Hints) : Prop where
  consistent : s.Consistent host
  signedOut : s.sessionKey host = none → s.phase = .idle

theorem switchTo_outputs (s : Hints) (session : SyncSession) :
    (switchTo s session).outputs = s.outputs := by
  unfold switchTo
  split
  · exact Hints.tearDown_outputs s
  · exact Hints.tearDown_outputs s

theorem switchTo_invariant {s : Hints} {session : SyncSession}
    (hconnected : ∀ n c, s.channels[n]? = some c → c.isOpen = true → s.phase = .connected n)
    (hsession : s.session = some session) (hlistening : s.listening = true) :
    Invariant host (switchTo s session) := by
  have hclosed := Hints.tearDown_closed hconnected
  unfold switchTo
  split
  · rename_i identity hidentity
    have hcurrent : s.tearDown.session = some session := (Hints.tearDown_session s).trans hsession
    refine ⟨Hints.connect_consistent hidentity hcurrent hclosed
      ((Hints.tearDown_listening s).trans hlistening), fun hkey => ?_⟩
    have hsome : s.tearDown.sessionKey host = some (host.transportSessionKey identity) := by
      simp [Hints.sessionKey, hsession, keyOf, hidentity]
    exact absurd (hsome.symm.trans hkey) (by simp)
  · exact ⟨Hints.consistent_of_idle (Hints.tearDown_phase s) hclosed,
      fun _ => Hints.tearDown_phase s⟩

theorem next_invariant {s : Hints} (h : Invariant host s) (event : Event) :
    Invariant host (next host trim retryAttempts s event) := by
  have hinner : Hints.Inner event → Invariant host (next host trim retryAttempts s event) := by
    intro hinner
    have hframe : s.Frame (next host trim retryAttempts s event) :=
      Hints.inner_frame h.consistent true hinner
    refine ⟨Hints.inner_consistent h.consistent true hinner, fun hkey => hframe.idle ?_⟩
    exact h.signedOut ((Hints.sessionKey_congr hframe.session).symm.trans hkey)
  cases event with
  | session session =>
    dsimp only [next, Hints.step]
    split
    · rename_i hlistening
      exact switchTo_invariant h.consistent.connected rfl hlistening
    · rename_i hlistening
      have haway : s.listening = false := by simpa using hlistening
      exact ⟨(Hints.outputs_consistent h.consistent []).away haway session,
        fun _ => h.consistent.idle haway⟩
  | subscribe replays =>
    dsimp only [next, Hints.step]
    split
    · exact ⟨Hints.outputs_consistent h.consistent [], h.signedOut⟩
    · rename_i hlistening
      have hidle : s.phase = .idle := h.consistent.idle (by simpa using hlistening)
      have hclosed : s.Closed := h.consistent.closed (by simp [hidle])
      split
      · rename_i session hsession
        exact switchTo_invariant h.consistent.connected hsession rfl
      · exact ⟨Hints.consistent_of_idle hidle hclosed, fun _ => hidle⟩
  | leave => exact hinner ⟨by simp, by simp⟩
  | tokenAnswer refresh token => exact hinner ⟨by simp, by simp⟩
  | authAnswer refresh succeeds creation => exact hinner ⟨by simp, by simp⟩
  | payload channel decoded => exact hinner ⟨by simp, by simp⟩
  | failure channel => exact hinner ⟨by simp, by simp⟩
  | retry => exact hinner ⟨by simp, by simp⟩

theorem not_lingers {s : Hints} (h : Invariant host s) (event : Event) : ¬s.Lingers host event := by
  rintro ⟨hkey, ⟨channel, decoded, identity, -, hchannel⟩ | ⟨refresh, _, _, -, -, hphase⟩⟩
  · have hconnected := (h.consistent.channel channel _ hchannel rfl).1
    rw [h.signedOut hkey] at hconnected
    cases hconnected
  · rw [h.signedOut hkey] at hphase
    cases hphase

end TypeScript

namespace Dart

/-- `distinct` has let through a session with the key of the current one. -/
structure Invariant (host : JsonHost) (s : Hints) : Prop where
  consistent : s.Consistent host
  previous : s.listening = true → ∀ p, s.previous = some p → keyOf host p = s.sessionKey host

theorem keyOf_of_sameSession {p session : SyncSession} (h : sameSession host p session = true) :
    keyOf host p = keyOf host session := by
  cases p <;> cases session <;> simp_all [sameSession, keyOf, requireAuthenticated]

theorem switchTo_outputs (keeps : Bool) (s : Hints) (session : SyncSession) :
    (switchTo host keeps s session).outputs = s.outputs := by
  unfold switchTo
  split
  · rfl
  split
  · exact Hints.tearDown_outputs _
  · split
    · rfl
    · exact Hints.tearDown_outputs _

theorem switchTo_invariant {s : Hints} (h : Invariant host s) (hlistening : s.listening = true)
    (keeps : Bool) (session : SyncSession) :
    Invariant host (switchTo host keeps { s with session := some session } session) := by
  have hconnected := h.consistent.connected
  have hkey : ∀ {t : Hints}, t.session = some session → t.sessionKey host = keyOf host session := by
    intro t ht
    rw [Hints.sessionKey, ht, Option.bind_some]
  unfold switchTo
  split
  · rename_i hsame
    obtain ⟨p, hp, hsame⟩ : ∃ p, s.previous = some p ∧ sameSession host p session = true := by
      cases hp : s.previous with
      | none => simp [hp] at hsame
      | some p => exact ⟨p, rfl, by simpa [hp] using hsame⟩
    have hold : s.sessionKey host = keyOf host session :=
      (h.previous hlistening p hp).symm.trans (keyOf_of_sameSession hsame)
    refine ⟨⟨fun key hcurrent => h.consistent.owner key ?_, h.consistent.refresh,
      h.consistent.channel, h.consistent.idle⟩, fun _ q hq => ?_⟩
    · rw [hold, ← hcurrent, hkey rfl]
    · rw [h.previous hlistening q hq, hold, hkey rfl]
  · split
    · rename_i identity hidentity
      refine ⟨Hints.connect_consistent hidentity (Hints.tearDown_session _)
        (Hints.tearDown_closed hconnected) ((Hints.tearDown_listening _).trans hlistening), ?_⟩
      intro _ p hp
      obtain rfl : session = p := Option.some.inj ((Hints.tearDown_previous _).symm.trans hp)
      exact (hkey (Hints.tearDown_session _)).symm
    · rename_i hnone
      have hsignedOut : keyOf host session = none := by rw [keyOf, hnone, Option.map_none]
      split
      · refine ⟨⟨fun key h => ?_, h.consistent.refresh, h.consistent.channel, h.consistent.idle⟩, ?_⟩
        · exact absurd ((hkey rfl).symm.trans h) (by simp [hsignedOut])
        · intro _ p hp
          obtain rfl := Option.some.inj hp
          exact (hkey rfl).symm
      · refine ⟨Hints.consistent_of_idle (Hints.tearDown_phase _)
          (Hints.tearDown_closed hconnected), ?_⟩
        intro _ p hp
        obtain rfl : session = p := Option.some.inj ((Hints.tearDown_previous _).symm.trans hp)
        exact (hkey (Hints.tearDown_session _)).symm

theorem next_invariant {s : Hints} (h : Invariant host s) (keeps : Bool) (event : Event) :
    Invariant host (next host trim retryAttempts keeps s event) := by
  have hquiet : Invariant host { s with outputs := [] } :=
    ⟨Hints.outputs_consistent h.consistent [], h.previous⟩
  have hinner : Hints.Inner event →
      Invariant host (next host trim retryAttempts keeps s event) := by
    intro hinner
    have hframe : s.Frame (next host trim retryAttempts keeps s event) :=
      Hints.inner_frame h.consistent false hinner
    refine ⟨Hints.inner_consistent h.consistent false hinner, fun hlistening p hp => ?_⟩
    rw [Hints.sessionKey_congr hframe.session]
    exact h.previous (hframe.listening hlistening) p (hframe.previous.symm.trans hp)
  cases event with
  | session session =>
    dsimp only [next, Hints.step]
    split
    · rename_i hlistening
      exact switchTo_invariant hquiet hlistening keeps session
    · rename_i hlistening
      exact ⟨hquiet.consistent.away (by simpa using hlistening) session,
        fun h => absurd h hlistening⟩
  | subscribe replays =>
    dsimp only [next, Hints.step]
    split
    · exact hquiet
    · rename_i hlistening
      have hidle : s.phase = .idle := h.consistent.idle (by simpa using hlistening)
      have hfresh : Invariant host { s with outputs := [], listening := true, previous := none } :=
        ⟨Hints.consistent_of_idle hidle (h.consistent.closed (by simp [hidle])),
          fun _ _ hp => by cases hp⟩
      split
      · rename_i session hsession
        have hreplayed := switchTo_invariant hfresh rfl keeps session
        have hsame : ({ s with outputs := [], listening := true, previous := none } : Hints) =
            { s with session := some session, outputs := [], listening := true,
                     previous := none } := by
          rw [← hsession]
        rw [hsame]
        exact hreplayed
      · exact hfresh
  | leave => exact hinner ⟨by simp, by simp⟩
  | tokenAnswer refresh token => exact hinner ⟨by simp, by simp⟩
  | authAnswer refresh succeeds creation => exact hinner ⟨by simp, by simp⟩
  | payload channel decoded => exact hinner ⟨by simp, by simp⟩
  | failure channel => exact hinner ⟨by simp, by simp⟩
  | retry => exact hinner ⟨by simp, by simp⟩

end Dart

theorem isolated_start : ({} : Hints).Isolated host := Hints.isolated_of_outputs rfl

theorem consistent_start : ({} : Hints).Consistent host :=
  Hints.consistent_of_idle rfl fun _ hc => by cases hc

variable (host trim retryAttempts) in
/-- The hints of both packages stay with the current session in the runs in which no valid token
arrives for another session and, in Dart, no channel lingers after a session that is not
authenticated. -/
theorem hints_isolated_iff (keeps : Bool) (events : List Event) :
    (StatesMeet (TypeScript.next host trim retryAttempts) (Hints.Isolated host) {} events ↔
      StepsMeet (TypeScript.next host trim retryAttempts)
        (fun s event => ¬s.ForeignToken host trim event) {} events) ∧
    (StatesMeet (Dart.next host trim retryAttempts keeps) (Hints.Isolated host) {} events ↔
      StepsMeet (Dart.next host trim retryAttempts keeps)
        (fun s event => ¬s.ForeignToken host trim event ∧ ¬s.Lingers host event) {} events) := by
  constructor
  · refine statesMeet_iff_stepsMeet (I := TypeScript.Invariant host)
      (fun s event h => TypeScript.next_invariant h event) (fun s event h _ => ?_)
      ⟨consistent_start, fun _ => rfl⟩ isolated_start events
    rw [TypeScript.next, Hints.step_isolated h.consistent true TypeScript.switchTo_outputs event]
    exact and_iff_left (TypeScript.not_lingers h event)
  · refine statesMeet_iff_stepsMeet (I := Dart.Invariant host)
      (fun s event h => Dart.next_invariant h keeps event) (fun s event h _ => ?_)
      ⟨consistent_start, fun h => by cases h⟩ isolated_start events
    exact Hints.step_isolated h.consistent false (Dart.switchTo_outputs keeps) event

end

def userOf (id : String) : SyncSessionIdentity :=
  { sharedUserId := id, provider := "p", providerTenant := "t", sessionId := some "s" }

/-- The token of the first user arrives after the switch to the second. -/
def lateToken : List Event :=
  [.subscribe false, .session (.authenticated (userOf "a")), .session (.authenticated (userOf "b")),
    .tokenAnswer 0 (some "jwt")]

theorem lateToken_is_set :
    ((run (TypeScript.next plainHost id 8) {} lateToken).sessionKey plainHost = some "p:t:b:s" ∧
      (run (TypeScript.next plainHost id 8) {} lateToken).outputs =
        [.setAuth (userOf "a") "jwt"]) ∧
    ((run (Dart.next plainHost id 8 true) {} lateToken).sessionKey plainHost = some "p:t:b:s" ∧
      (run (Dart.next plainHost id 8 true) {} lateToken).outputs =
        [.setAuth (userOf "a") "jwt"]) ∧
    ¬∀ host trim retryAttempts keeps events,
      StatesMeet (TypeScript.next host trim retryAttempts) (Hints.Isolated host) {} events ∧
        StatesMeet (Dart.next host trim retryAttempts keeps) (Hints.Isolated host) {} events := by
  have hkey : (run (TypeScript.next plainHost id 8) {} lateToken).sessionKey plainHost =
      some "p:t:b:s" := by decide
  have hset : (run (TypeScript.next plainHost id 8) {} lateToken).outputs =
      [.setAuth (userOf "a") "jwt"] := by decide
  refine ⟨⟨hkey, hset⟩, ⟨by decide, by decide⟩, fun h => ?_⟩
  have hlast := (h plainHost id 8 true lateToken).1.last
  have hforeign := hlast (.setAuth (userOf "a") "jwt") (by rw [hset]; exact List.mem_cons_self)
  rw [hkey] at hforeign
  exact absurd hforeign (by decide)

end OptoSync.LiveHints
