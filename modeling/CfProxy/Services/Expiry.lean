import CfProxy.Services.Tenants

set_option autoImplicit false

namespace Datetime

-- A `DateTime` column keeps the wall clock and drops the offset.
def stored (moment : Datetime) : Datetime := { moment with offset := none }

def aware (moment : Datetime) : Bool := moment.offset.isSome

-- The instant an aware datetime denotes.
def instant (moment : Datetime) : Int := moment.wall - moment.offset.getD 0

@[simp] theorem aware_utc (instant : Int) : (utc instant).aware = true := rfl

@[simp] theorem addSeconds_stored (moment : Datetime) (seconds : Rat) :
    moment.stored.addSeconds seconds = (moment.addSeconds seconds).stored := rfl

theorem stored_before {moment now : Datetime} (clock : now.aware = true) :
    moment.stored.before now = .error .typeError := by
  obtain ⟨offset, present⟩ := Option.isSome_iff_exists.mp clock
  simp [before, stored, present]

theorem before_stored {moment now : Datetime} (clock : now.aware = true) :
    now.before moment.stored = .error .typeError := by
  obtain ⟨offset, present⟩ := Option.isSome_iff_exists.mp clock
  simp [before, stored, present]

end Datetime

namespace CfProxy.Models

def ScopedToken.reread (row : ScopedToken) : ScopedToken :=
  { row with expiresAt := row.expiresAt.map .stored, revokedAt := row.revokedAt.map .stored }

def UpstreamCredential.reread (row : UpstreamCredential) : UpstreamCredential :=
  { row with tokenExpiresAt := row.tokenExpiresAt.map .stored, verifiedAt := row.verifiedAt.map .stored }

def Database.reread (db : Database) : Database :=
  { db with credentials := db.credentials.map .reread, tokens := db.tokens.map .reread }

theorem Database.reread_tokenByLookup (db : Database) (lookupId : Str) :
    db.reread.tokenByLookup lookupId = (db.tokenByLookup lookupId).map .reread := by
  simp only [reread, tokenByLookup, List.find?_map]
  rfl

theorem Database.reread_credential (db : Database) (credentialId : Str) :
    db.reread.credential credentialId = (db.credential credentialId).map .reread := by
  simp only [reread, credential, List.find?_map]
  rfl

end CfProxy.Models

namespace CfProxy.TokenPlane

open Models Crypto Client OauthService

structure Expiring (settings : Settings) (db : Database) (order : MintOrder) (tokenId : Str) (generated : Generated)
    (given : Datetime) : Prop where
  plainBrand : '_' ∉ settings.brand
  ordered : order.expiresAt = some given
  found : db.tokenByLookup generated.lookupId = some (order.token settings tokenId generated)

theorem Expiring.checkToken_raises {settings : Settings} {db : Database} {order : MintOrder} {tokenId : Str}
    {generated : Generated} {given now : Datetime} (expiring : Expiring settings db order tokenId generated given)
    (clock : now.aware = true) :
    checkToken settings db.reread (generated.full settings.brand) now = .error .typeError := by
  have parsed := parseScopedToken_full settings.unicode expiring.plainBrand generated
  have row := (db.reread_tokenByLookup generated.lookupId).trans (congrArg _ expiring.found)
  simp [checkToken, parsed, row, ScopedToken.reread, MintOrder.token, verifyToken, expiring.ordered,
    Datetime.stored_before clock]

structure Issued (env : Env) (s : Store) (credential row : UpstreamCredential) (given : Datetime) : Prop where
  oauth : credential.credType = oauthType
  uncached : (cacheGetJson env (Cache.oauthAtKey credential.id) s).1 = .ok .null
  found : s.db.credential credential.id = some row
  expires : row.tokenExpiresAt = some given

theorem unexpired_raises (d : Deployment) {env : Env} (given : Datetime) (clock : env.now.aware = true) :
    unexpired d env (some given.stored) = .error .typeError := by
  simp only [unexpired, Datetime.addSeconds_stored]
  exact Datetime.before_stored clock

theorem Issued.getValidAccessToken_raises {d : Deployment} {env : Env} {s : Store}
    {credential row : UpstreamCredential} {given : Datetime} (issued : Issued env s credential row given)
    (clock : env.now.aware = true) :
    (getValidAccessToken d env credential (s.withDb s.db.reread)).1 = .error .typeError := by
  have uncached : cacheGetJson env (Cache.oauthAtKey credential.id) (s.withDb s.db.reread) =
      (.ok .null, s.withDb s.db.reread) := Prod.ext issued.uncached rfl
  have selected : selectById credential.id (s.withDb s.db.reread) = (.ok row.reread, s.withDb s.db.reread) := by
    simp [selectById, Stateful.query, Database.reread_credential, issued.found]
  unfold getValidAccessToken
  rw [if_neg (by simp [issued.oauth]), Stateful.bind_ok uncached, if_neg (by simp [Json.truthy]),
    Stateful.bind_ok selected]
  have failed : Stateful.lift (unexpired d env row.reread.tokenExpiresAt) (s.withDb s.db.reread) =
      (.error .typeError, s.withDb s.db.reread) := by
    simp [Stateful.lift, Stateful.query, UpstreamCredential.reread, issued.expires, unexpired_raises d given clock]
  exact congrArg Prod.fst (Stateful.bind_error failed)

theorem not_decides_error {raised : PyError} {p : Prop} : ¬Decides (.error raised) p := by
  rintro ⟨verdict, ⟨⟩, -⟩

theorem expiry_undecided (d : Deployment) :
    (∀ {db order tokenId generated given now}, Expiring d.settings db order tokenId generated given →
      now.aware = true →
      ¬Decides ((checkToken d.settings db.reread (generated.full d.settings.brand) now).map Option.isNone)
        (given.instant < now.instant)) ∧
    ∀ {env s credential row given}, Issued env s credential row given → env.now.aware = true →
      ¬Decides (unexpired d env row.reread.tokenExpiresAt)
        (env.now.instant < (given.addSeconds (-d.oauth.accessTokenSkew)).instant) ∧
      (getValidAccessToken d env credential (s.withDb s.db.reread)).1 = .error .typeError := by
  constructor
  · intro db order tokenId generated given now expiring clock
    rw [expiring.checkToken_raises clock]
    exact not_decides_error
  · intro env s credential row given issued clock
    refine ⟨?_, issued.getValidAccessToken_raises clock⟩
    simp only [UpstreamCredential.reread, issued.expires, Option.map_some, unexpired_raises d given clock]
    exact not_decides_error

section Example

-- Nine in the morning at +09:00, which is the instant 0.
def tokyoMorning : Datetime := ⟨9 * 3600 * 1000000, some (9 * 3600 * 1000000)⟩

def expiringOrder : MintOrder := { order with expiresAt := some tokyoMorning }

def expiringCredential : UpstreamCredential where
  id := ['c']
  userId := ['u']
  label := oauthCredentialLabel
  credType := oauthType
  tokenExpiresAt := some tokyoMorning

def expiringStore : Store where
  db := { Database.empty false with
    credentials := [expiringCredential]
    tokens := [expiringOrder.token plainDeployment.settings ['t'] issued] }

theorem expiring_token :
    Expiring plainDeployment.settings expiringStore.db expiringOrder ['t'] issued tokyoMorning where
  plainBrand := by decide
  ordered := rfl
  found := by simp [expiringStore, Database.tokenByLookup, MintOrder.token]

theorem issued_credential :
    Issued (drawing ['n'] issued) expiringStore expiringCredential expiringCredential tokyoMorning where
  oauth := rfl
  uncached := rfl
  found := by simp [expiringStore, Database.credential]
  expires := rfl

theorem expiry_raises :
    ¬Decides ((checkToken plainDeployment.settings expiringStore.db.reread
        (issued.full plainDeployment.settings.brand) (.utc (-1))).map Option.isNone)
        (tokyoMorning.instant < (Datetime.utc (-1)).instant) ∧
      (getValidAccessToken plainDeployment (drawing ['n'] issued) expiringCredential
        (expiringStore.withDb expiringStore.db.reread)).1 = .error .typeError := by
  refine ⟨?_, issued_credential.getValidAccessToken_raises rfl⟩
  rw [expiring_token.checkToken_raises rfl]
  exact not_decides_error

theorem expiry_undecided_tokyo :
    ¬Decides ((checkToken plainDeployment.settings expiringStore.db.reread
        (issued.full plainDeployment.settings.brand) (.utc 1)).map Option.isNone)
        (tokyoMorning.instant < (Datetime.utc 1).instant) ∧
      ¬Decides (unexpired plainDeployment (drawing ['n'] issued) expiringCredential.reread.tokenExpiresAt)
        ((drawing ['n'] issued).now.instant < (tokyoMorning.addSeconds (-60)).instant) :=
  ⟨(expiry_undecided plainDeployment).1 expiring_token rfl,
    ((expiry_undecided plainDeployment).2 issued_credential rfl).1⟩

end Example

end CfProxy.TokenPlane
