import CfProxy.Auth.AuthorizeUrl
import CfProxy.Services.LoginProtocol

set_option autoImplicit false

namespace CfProxy.LoginPlane

open Machine Models Crypto OauthCf OauthService

variable {ι : Type}

section Left

variable (oauth : Oauth) (s : Shared ι) (p : ι) (phase : Phase ι)

def Redirected : Prop := ∃ drawn, ⟨p, drawn⟩ ∈ s.issues ∧ phase = .redirected (drawn.authorizeUrl oauth)

structure Left : Prop where
  kept : ∀ key entry, s.states key = some entry → entry.start = p → Redirected oauth s p phase
  spent : ∀ spent ∈ s.consumptions, spent.entry.start = p → Redirected oauth s p phase

end Left

section Preserved

variable {oauth : Oauth} {collation : Collation} {s after : Shared ι} {p q : ι} {action : Action} {phase next : Phase ι}

theorem Step.unfinished (step : Step oauth collation p action s phase after next) : phase.finished = false := by
  cases step <;> first | rfl | assumption

theorem Redirected.finished (redirected : Redirected oauth s p phase) : phase.finished = true := by
  obtain ⟨drawn, -, rfl⟩ := redirected
  rfl

theorem Redirected.grows (redirected : Redirected oauth s p phase) (grows : s.Grows after) :
    Redirected oauth after p phase := by
  obtain ⟨drawn, issued, isPhase⟩ := redirected
  exact ⟨drawn, grows.issues issued, isPhase⟩

theorem Left.others (left : Left oauth s q phase) (own : Own p s after) (grows : s.Grows after) (apart : q ≠ p) :
    Left oauth after q phase := by
  have kept : ∀ key entry, s.states key = some entry → entry.start = q → Redirected oauth after q phase :=
    fun key entry held mine => (left.kept key entry held mine).grows grows
  constructor
  · rintro key entry held rfl
    rcases own.states key entry held with old | same
    · exact kept key entry old rfl
    · exact absurd same apart
  · intro spent member mine
    rcases own.consumptions spent member with old | ⟨key, held⟩
    · exact (left.spent spent old mine).grows grows
    · exact kept key spent.entry held mine

theorem Step.states (step : Step oauth collation p action s phase after next) {key : Str} {entry : Entry ι}
    (held : after.states key = some entry) :
    s.states key = some entry ∨ ∃ drawn, phase = .starting drawn ∧ next = .redirected (drawn.authorizeUrl oauth) := by
  cases step with
  | stored => exact .inr ⟨_, rfl, rfl⟩
  | consumed => exact .inl (forget_states held).1
  | dropped => exact .inl (forget_states held).1
  | _ => exact .inl held

theorem Step.left (step : Step oauth collation p action s phase after next) (unused : Unused s p phase)
    (left : Left oauth s p phase) : Left oauth after p next := by
  have redirects : ¬ Redirected oauth s p phase := fun redirected =>
    absurd (redirected.finished.symm.trans step.unfinished) (by decide)
  have unstored : ∀ key entry, s.states key = some entry → entry.start ≠ p :=
    fun key entry held mine => redirects (left.kept key entry held mine)
  constructor
  · intro key entry held mine
    rcases step.states held with old | ⟨drawn, rfl, rfl⟩
    · exact absurd mine (unstored key entry old)
    · exact ⟨drawn, step.grows.issues unused.1, rfl⟩
  · intro spent member mine
    rcases step.own.consumptions spent member with old | ⟨key, held⟩
    · exact absurd (left.spent spent old mine) redirects
    · exact absurd mine (unstored key spent.entry held)

theorem env_left {event : Event} (changed : env collation event s = some after) (left : Left oauth s p phase) :
    Left oauth after p phase := by
  unfold env at changed
  split at changed
  · cases changed
    exact ⟨fun key entry held => left.kept key entry (forget_states held).1, left.spent⟩
  · split at changed <;> cases changed
    exact ⟨left.kept, left.spent⟩
  · cases changed
    exact ⟨left.kept, left.spent⟩

end Preserved

section Reachable

variable [DecidableEq ι] {oauth : Oauth} {fernet : Fernet} {collation : Collation} {foreignKeys : Bool}
  {c : Config ι (Shared ι) (Phase ι)} {p : ι} {login : Login ι} {session : Session}

theorem reachable_left (reached : (logins oauth fernet collation foreignKeys).system.Reachable System.unrestricted c)
    (p : ι) :
    Left oauth c.shared p (c.procs p) := by
  have known := reached.assuming fun _ => reachable_holds found_as_compared
  refine (Interleaving.interference_free _ _ (fun _ => True) (fun p s phase => Left oauth s p phase) ?_ ?_ ?_ ?_
    known).procs p
  · rintro shared rfl
    exact ⟨trivial, fun p => ⟨by simp, by simp⟩⟩
  · intro c p action shared phase inv allowed acted
    exact ⟨trivial, (act_step acted).left (allowed.2.procs p).1 (inv.procs p)⟩
  · intro c p action shared phase other inv _ acted apart
    have step := act_step acted
    exact (inv.procs other).others step.own step.grows apart
  · intro c event shared inv _ changed
    exact ⟨trivial, fun p => env_left changed (inv.procs p)⟩

-- A session comes from a redirect whose URL, read by the issuer, asks for the state that came back, for the nonce
-- that the id_token was checked for, and for the challenge of the verifier that went with the code.
theorem session_redirected (plain : ∀ c ∈ oauth.issuer, Uri.endsPath c = false)
    (reached : (logins oauth fernet collation foreignKeys).system.Reachable System.unrestricted c)
    (issued : c.procs p = .issued login session) :
    ∃ url drawn codeChallenge, c.procs login.entry.start = .redirected url ∧
      asks url = some [("response_type".toList, "code".toList), ("client_id".toList, oauth.clientId),
        ("redirect_uri".toList, oauth.redirectUri),
        ("scope".toList, if oauth.dnsScope = [] then oauth.baseScopes else oauth.baseScopes ++ [' '] ++ oauth.dnsScope),
        ("state".toList, drawn.state), ("nonce".toList, drawn.nonce),
        ("code_challenge".toList, codeChallenge), ("code_challenge_method".toList, "S256".toList)] ∧
      S256 oauth drawn.verifier codeChallenge ∧ SignedIn oauth c.shared p login drawn := by
  have holds := reachable_holds found_as_compared reached
  obtain ⟨⟨drawn, signedIn⟩, -⟩ := session_of holds issued
  obtain ⟨other, started, redirected⟩ := (reachable_left reached login.entry.start).spent _ signedIn.consumed rfl
  obtain rfl := holds.shared.drawn_unique signedIn.issued started
  exact ⟨_, drawn, _, redirected, buildAuthorizeUrl_asks oauth plain _ _ _, challenge_s256 oauth drawn.verifier, signedIn⟩

end Reachable

section Example

theorem alice_redirected : ∃ c : Config (Fin 6) (Shared (Fin 6)) (Phase (Fin 6)), ∃ login session url drawn codeChallenge,
    c.procs 1 = .issued login session ∧ c.procs login.entry.start = .redirected url ∧
      asks url = some (authorizeParams aliceOauth drawn.state drawn.nonce codeChallenge) ∧
      S256 aliceOauth drawn.verifier codeChallenge ∧ SignedIn aliceOauth c.shared 1 login drawn := by
  have ran : ((logins aliceOauth plainFernet .exact true).system.run nobody
      (begins 0 ++ arrives 1 0 aliceSub ++ enters 1)).map
      (fun c => signedInAs (c.procs 1)) = some (some (aliceSub, ['u', '1'])) := by
    decide +kernel
  obtain ⟨c, ran, shown⟩ := Option.map_eq_some_iff.mp ran
  have initial : (logins aliceOauth plainFernet .exact true).system.init nobody := ⟨rfl, fun _ => rfl⟩
  have reached := System.Reachable.run (.start initial) (fun _ _ _ => trivial) ran
  obtain ⟨login, session, issued, -, -⟩ := signedInAs_some shown
  obtain ⟨url, drawn, codeChallenge, redirected⟩ := session_redirected (by simp [aliceOauth]) reached issued
  exact ⟨c, login, session, url, drawn, codeChallenge, issued, redirected⟩

end Example

end CfProxy.LoginPlane
