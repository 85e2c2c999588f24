import CfProxy.Auth.AccountPlane

set_option autoImplicit false

namespace CfProxy.Accounts

open Machine Models OauthCf OauthService

section Growth

-- A row later: only `is_active` changes, and the e-mail where there is no password.
structure Later (row later : Account) : Prop where
  id : later.id = row.id
  sub : later.cfSub = row.cfSub
  hash : later.passwordHash = row.passwordHash
  email : row.passwordHash.isSome = true → later.email = row.email

theorem Later.refl (row : Account) : Later row row := ⟨rfl, rfl, rfl, fun _ => rfl⟩

theorem Later.trans {first second third : Account} (before : Later first second) (after : Later second third) :
    Later first third where
  id := after.id.trans before.id
  sub := after.sub.trans before.sub
  hash := after.hash.trans before.hash
  email hashed := (after.email (by rw [before.hash, hashed])).trans (before.email hashed)

structure Grows (s after : Shared) : Prop where
  accounts : ∀ row ∈ s.accounts, ∃ later ∈ after.accounts, Later row later
  registrations : s.registrations ⊆ after.registrations
  signIns : s.signIns ⊆ after.signIns

theorem Grows.refl (s : Shared) : Grows s s :=
  ⟨fun row member => ⟨row, member, .refl row⟩, List.Subset.refl _, List.Subset.refl _⟩

theorem Grows.of_map {s : Shared} {change : Account → Account} (each : ∀ row ∈ s.accounts, Later row (change row)) :
    Grows s { s with accounts := s.accounts.map change } :=
  { Grows.refl s with accounts := fun row member => ⟨_, List.mem_map_of_mem member, each row member⟩ }

end Growth

section Invariant

variable (keys : Keys)

-- An account of this service's own: it has the password that it was registered with, and no subject of the issuer.
structure Registered (s : Shared) (row : Account) (email pw : Str) : Prop where
  recorded : ⟨row.id, email, pw⟩ ∈ s.registrations
  email : row.email = some email
  hash : ∃ salt, row.passwordHash = some (keys.hasher.hash salt pw)
  sub : row.cfSub = none

structure External (row : Account) : Prop where
  hash : row.passwordHash = none
  sub : row.cfSub ≠ none

-- What identifies an account: an e-mail that the database takes for its own with its password, or a subject that the
-- database takes for its own.
def Means.Identifies (s : Shared) (row : Account) : Means → Prop
  | .password email pw => ∃ own, keys.collation.same own email = true ∧ Registered keys s row own pw
  | .oauth sub => row.passwordHash = none ∧ keys.collation.holds row.cfSub sub = true

def SignIn.valid (signIn : SignIn) (now : Int) : Prop := signIn.session.iat ≤ now ∧ now < signIn.session.exp

structure Sound (s : Shared) : Prop where
  distinct : DistinctUsers keys.collation (toUsers s.accounts)
  emails : DistinctEmails keys.collation s.accounts
  origin : ∀ row ∈ s.accounts, (∃ email pw, Registered keys s row email pw) ∨ External row
  kept : ∀ registration ∈ s.registrations, ∃ row ∈ s.accounts, row.id = registration.userId ∧
    Registered keys s row registration.email registration.password
  once : (s.registrations.map (·.email)).Nodup
  signed : ∀ signIn ∈ s.signIns, ∃ row ∈ s.accounts, row.id = signIn.session.sub ∧
    signIn.means.Identifies keys s row
  lifetime : ∀ signIn ∈ s.signIns, signIn.session.exp = signIn.session.iat + keys.oauth.jwtTtlSeconds

def Knows (s : Shared) : Phase → Prop
  | .registered registration => registration ∈ s.registrations
  | .checking found email _ => ∀ account, found = some account →
      keys.collation.holds account.email email = true ∧ ∃ row ∈ s.accounts, Later account row
  | .selected identity found => ∀ user, found = some user →
      ∃ row ∈ s.accounts, row.id = user.id ∧ keys.collation.holds row.cfSub identity.sub = true
  | .committed identity userId =>
    ∃ row ∈ s.accounts, row.id = userId ∧ keys.collation.holds row.cfSub identity.sub = true
  | .decoded userId now => ∃ signIn ∈ s.signIns, signIn.session.sub = userId ∧ signIn.valid now
  | .authenticated account now => account.isActive = true ∧
      ∃ signIn ∈ s.signIns, signIn.session.sub = account.id ∧ signIn.valid now ∧ signIn.means.Identifies keys s account
  | _ => True

end Invariant

section Steps

variable {keys : Keys} {s after : Shared} {row newer : Account}

theorem Registered.later {email pw : Str} (registered : Registered keys s row email pw) (same : Later row newer)
    (grown : s.registrations ⊆ after.registrations) : Registered keys after newer email pw := by
  obtain ⟨recorded, hasEmail, ⟨salt, hashed⟩, sub⟩ := registered
  constructor
  · rw [same.id]
    exact grown recorded
  · rw [same.email (by simp [hashed]), hasEmail]
  · exact ⟨salt, by rw [same.hash, hashed]⟩
  · rw [same.sub, sub]

theorem Means.Identifies.later {means : Means} (identifies : means.Identifies keys s row) (same : Later row newer)
    (grown : s.registrations ⊆ after.registrations) : means.Identifies keys after newer := by
  cases means with
  | password email pw =>
    obtain ⟨own, alike, registered⟩ := identifies
    exact ⟨own, alike, registered.later same grown⟩
  | oauth sub => exact ⟨same.hash.trans identifies.1, by rw [same.sub, identifies.2]⟩

theorem Knows.grows {phase : Phase} (knows : Knows keys s phase) (grows : Grows s after) : Knows keys after phase := by
  obtain ⟨accounts, registrations, signIns⟩ := grows
  cases phase with
  | registered => exact registrations knows
  | checking found email pw =>
    intro account loaded
    obtain ⟨same, row, member, later⟩ := knows account loaded
    obtain ⟨newer, member, evenLater⟩ := accounts row member
    exact ⟨same, newer, member, later.trans evenLater⟩
  | selected identity found =>
    intro user loaded
    obtain ⟨row, member, id, sub⟩ := knows user loaded
    obtain ⟨newer, member, later⟩ := accounts row member
    exact ⟨newer, member, later.id.trans id, by rw [later.sub, sub]⟩
  | committed identity userId =>
    obtain ⟨row, member, id, sub⟩ := knows
    obtain ⟨newer, member, later⟩ := accounts row member
    exact ⟨newer, member, later.id.trans id, by rw [later.sub, sub]⟩
  | decoded userId now =>
    obtain ⟨signIn, member, rest⟩ := knows
    exact ⟨signIn, signIns member, rest⟩
  | authenticated account now =>
    obtain ⟨active, signIn, member, sub, valid, identifies⟩ := knows
    exact ⟨active, signIn, signIns member, sub, valid, Means.Identifies.later identifies (.refl account) registrations⟩
  | _ => trivial

theorem Sound.of_accounts {accounts : List Account} (sound : Sound keys s) (distinct : DistinctUsers keys.collation (toUsers accounts))
    (emails : DistinctEmails keys.collation accounts) (forth : ∀ row ∈ s.accounts, ∃ newer ∈ accounts, Later row newer)
    (back : ∀ newer ∈ accounts, (∃ row ∈ s.accounts, Later row newer) ∨ External newer) :
    Sound keys { s with accounts } where
  distinct := distinct
  emails := emails
  origin newer member := by
    rcases back newer member with ⟨row, before, later⟩ | external
    · rcases sound.origin row before with ⟨email, pw, registered⟩ | ⟨hash, sub⟩
      · exact .inl ⟨email, pw, registered.later later (List.Subset.refl _)⟩
      · exact .inr ⟨later.hash.trans hash, by rwa [later.sub]⟩
    · exact .inr external
  kept registration recorded := by
    obtain ⟨row, member, id, registered⟩ := sound.kept registration recorded
    obtain ⟨newer, member, later⟩ := forth row member
    exact ⟨newer, member, later.id.trans id, registered.later later (List.Subset.refl _)⟩
  once := sound.once
  signed signIn issued := by
    obtain ⟨row, member, id, identifies⟩ := sound.signed signIn issued
    obtain ⟨newer, member, later⟩ := forth row member
    exact ⟨newer, member, later.id.trans id, identifies.later later (List.Subset.refl _)⟩
  lifetime := sound.lifetime

theorem Sound.ids (sound : Sound keys s) : (s.accounts.map (·.id)).Nodup := by
  simpa [toUsers, Function.comp_def] using sound.distinct.ids

theorem Sound.row_unique (sound : Sound keys s) {first second : Account} (memberFirst : first ∈ s.accounts)
    (memberSecond : second ∈ s.accounts) (same : first.id = second.id) : first = second :=
  List.inj_on_of_nodup_map sound.ids memberFirst memberSecond same

theorem Sound.external_of_sub (sound : Sound keys s) (member : row ∈ s.accounts) (named : row.cfSub ≠ none) :
    External row := by
  rcases sound.origin row member with ⟨email, pw, registered⟩ | external
  · exact absurd registered.sub named
  · exact external

theorem Sound.register {newId salt email pw : Str} {accounts : List Account} (sound : Sound keys s)
    (inserted : insertAccount keys.collation s.accounts (localAccount keys.hasher newId salt email pw) = .ok accounts) :
    Sound keys { s with accounts, registrations := ⟨newId, email, pw⟩ :: s.registrations } := by
  obtain ⟨wrote, rfl⟩ := toUsers_insertAccount inserted
  have free := insertUser_free wrote
  have grown : s.registrations ⊆ ⟨newId, email, pw⟩ :: s.registrations := List.subset_cons_self _ _
  have added : Registered keys { s with
      accounts := s.accounts ++ [localAccount keys.hasher newId salt email pw]
      registrations := ⟨newId, email, pw⟩ :: s.registrations } (localAccount keys.hasher newId salt email pw) email pw :=
    ⟨List.mem_cons_self, rfl, ⟨salt, rfl⟩, rfl⟩
  constructor
  · exact sound.distinct.insert wrote
  · exact sound.emails.insert inserted
  · intro row member
    rcases List.mem_append.mp member with old | new
    · rcases sound.origin row old with ⟨email, pw, registered⟩ | external
      · exact .inl ⟨email, pw, registered.later (.refl row) grown⟩
      · exact .inr external
    · obtain rfl := List.mem_singleton.mp new
      exact .inl ⟨email, pw, added⟩
  · intro registration recorded
    rcases List.mem_cons.mp recorded with rfl | old
    · exact ⟨_, List.mem_append_right _ (List.mem_singleton_self _), rfl, added⟩
    · obtain ⟨row, member, id, registered⟩ := sound.kept registration old
      exact ⟨row, List.mem_append_left _ member, id, registered.later (.refl row) grown⟩
  · rw [List.map_cons, List.nodup_cons]
    refine ⟨fun taken => ?_, sound.once⟩
    obtain ⟨registration, recorded, same⟩ := List.mem_map.mp taken
    obtain ⟨row, member, -, registered⟩ := sound.kept registration recorded
    have clash := (free row.toUser (List.mem_map_of_mem member)).2
    simp [registered.email, localAccount, Collation.clashes, same] at clash
  · intro signIn issued
    obtain ⟨row, member, id, identifies⟩ := sound.signed signIn issued
    exact ⟨row, List.mem_append_left _ member, id, identifies.later (.refl row) grown⟩
  · exact sound.lifetime

theorem Sound.signIn {means : Means} {now : Int} {userId : Str} (sound : Sound keys s)
    (identified : ∃ row ∈ s.accounts, row.id = userId ∧ means.Identifies keys s row) :
    Sound keys (s.signIn means (createJwt keys.oauth now userId)) where
  distinct := sound.distinct
  emails := sound.emails
  origin row member := (sound.origin row member).imp_left fun ⟨email, pw, registered⟩ =>
    ⟨email, pw, registered.later (.refl row) (List.Subset.refl _)⟩
  kept registration recorded := by
    obtain ⟨row, member, id, registered⟩ := sound.kept registration recorded
    exact ⟨row, member, id, registered.later (.refl row) (List.Subset.refl _)⟩
  once := sound.once
  signed signIn issued := by
    rcases List.mem_cons.mp issued with rfl | old
    · obtain ⟨row, member, id, identifies⟩ := identified
      exact ⟨row, member, id, identifies.later (.refl row) (List.Subset.refl _)⟩
    · obtain ⟨row, member, id, identifies⟩ := sound.signed signIn old
      exact ⟨row, member, id, identifies.later (.refl row) (List.Subset.refl _)⟩
  lifetime signIn issued := by
    rcases List.mem_cons.mp issued with rfl | old
    · rfl
    · exact sound.lifetime signIn old

theorem Sound.map {change : Account → Account} (sound : Sound keys s)
    (distinct : DistinctUsers keys.collation (toUsers (s.accounts.map change)))
    (emails : DistinctEmails keys.collation (s.accounts.map change))
    (each : ∀ row ∈ s.accounts, Later row (change row)) :
    Sound keys { s with accounts := s.accounts.map change } := by
  refine sound.of_accounts distinct emails (Grows.of_map each).accounts fun newer member => ?_
  obtain ⟨row, before, rfl⟩ := List.mem_map.mp member
  exact .inl ⟨row, before, each row before⟩

theorem setEmail_later (sound : Sound keys s) (email : Str) {userId : Str} (member : row ∈ s.accounts)
    (external : ∃ other ∈ s.accounts, other.id = userId ∧ other.cfSub ≠ none) :
    Later row (if row.id = userId then { row with email := some email } else row) := by
  split
  · rename_i same
    obtain ⟨other, known, id, named⟩ := external
    obtain rfl := sound.row_unique member known (same.trans id.symm)
    exact ⟨rfl, rfl, rfl, fun hashed => by simp [(sound.external_of_sub member named).hash] at hashed⟩
  · exact .refl row

theorem Sound.upsert {identity : Identity} {found : Option User} {newId : Str} {write : UserWrite}
    {accounts : List Account} (sound : Sound keys s) (knows : Knows keys s (.selected identity found))
    (read : upsertUser found newId identity = .ok write) (wrote : writeAccount keys.collation s.accounts write = .ok accounts) :
    Sound keys { s with accounts } ∧ Grows s { s with accounts } ∧
      Knows keys { s with accounts } (.committed identity write.userId) := by
  have distinct := UserWrite.distinct sound.distinct (toUsers_writeAccount wrote)
  have emails := sound.emails.write wrote
  cases found with
  | none =>
    obtain ⟨email, -, returned⟩ := Except.bind_eq_ok.mp read
    cases returned
    obtain ⟨-, rfl⟩ := toUsers_insertAccount wrote
    refine ⟨sound.of_accounts distinct emails ?_ ?_, { Grows.refl s with accounts := ?_ }, ?_⟩
    · exact fun row member => ⟨row, List.mem_append_left _ member, .refl row⟩
    · intro newer member
      rcases List.mem_append.mp member with old | new
      · exact .inl ⟨newer, old, .refl newer⟩
      · obtain rfl := List.mem_singleton.mp new
        exact .inr ⟨rfl, by simp⟩
    · exact fun row member => ⟨row, List.mem_append_left _ member, .refl row⟩
    · exact ⟨_, List.mem_append_right _ (List.mem_singleton_self _), rfl, by simp⟩
  | some user =>
    obtain ⟨named, known, id, sub⟩ := knows user rfl
    obtain ⟨email, rfl⟩ : ∃ email, write = .keep user.id email := by
      unfold upsertUser at read
      dsimp only at read
      split at read
      · rcases text : columnText identity.email with raised | email <;> rw [text] at read <;> cases read
        exact ⟨email, rfl⟩
      · cases read
        exact ⟨none, rfl⟩
    cases email with
    | none =>
      cases wrote
      exact ⟨sound, .refl s, named, known, id, sub⟩
    | some email =>
      obtain ⟨-, rfl⟩ := toUsers_setAccountEmail wrote
      have each (row : Account) (member : row ∈ s.accounts) :=
        setEmail_later sound email member ⟨named, known, id, Collation.holds_some_of sub⟩
      refine ⟨sound.map distinct emails each, .of_map each, _, List.mem_map_of_mem known, ?_⟩
      simp [UserWrite.userId, id, sub]

theorem readSubject_signed {now : Int} {credentials : Option Str} {userId : Str}
    (read : readSubject keys.jwt now credentials = .ok userId)
    (genuine : ∀ token, credentials = some token → (keys.jwt.decode now token).isSome = true →
      ∃ signIn ∈ s.signIns, keys.jwt.encode signIn.session = token) :
    ∃ signIn ∈ s.signIns, signIn.session.sub = userId ∧ signIn.valid now := by
  cases credentials with
  | none => cases read
  | some token =>
    cases decoded : keys.jwt.decode now token with
    | none => simp [readSubject, decoded] at read
    | some claims =>
      obtain ⟨signIn, issued, rfl⟩ := genuine token rfl (by rw [decoded, Option.isSome_some])
      rw [keys.jwt.decode_encode] at decoded
      split at decoded <;> cases decoded
      rename_i valid
      have subject : Json.get (payload signIn.session) "sub".toList = .str signIn.session.sub := rfl
      simp only [readSubject, keys.jwt.decode_encode, if_pos valid, subject] at read
      refine ⟨signIn, issued, ?_, valid⟩
      split at read <;> cases read
      rename_i same
      exact Json.str.inj same

theorem checkLogin_some {found : Option Account} {pw : Str} {account : Account}
    (checked : checkLogin keys.hasher found pw = .ok (some account)) :
    found = some account ∧ account.isActive = true ∧
      ∃ hashed, account.passwordHash = some hashed ∧ verifyPassword keys.hasher pw hashed = .ok true := by
  unfold checkLogin at checked
  split at checked
  · cases checked
  · split at checked
    · cases checked
    · rename_i hashed stored
      split at checked
      · cases checked
      · rename_i active
        obtain ⟨valid, verified, returned⟩ := Except.bind_eq_ok.mp checked
        cases valid <;> cases returned
        exact ⟨rfl, by simpa using active, hashed, stored, verified⟩

theorem activeUser_ok {userId : Str} {account : Account} (active : activeUser s.accounts userId = .ok account) :
    account ∈ s.accounts ∧ account.id = userId ∧ account.isActive = true := by
  unfold activeUser at active
  split at active
  · cases active
  · cases active
  · rename_i read
    split at active <;> cases active
    have member := scalarOneOrNone_some read
    rw [List.mem_filter, beq_iff_eq] at member
    exact ⟨member.1, member.2, ‹_›⟩

-- The password that a login has checked is that of the row as it is by now.
theorem Sound.verified {email pw : Str} {found : Option Account} {account : Account} (sound : Sound keys s)
    (knows : Knows keys s (.checking found email pw)) (checked : checkLogin keys.hasher found pw = .ok (some account)) :
    ∃ row ∈ s.accounts, row.id = account.id ∧ Means.Identifies keys s row (.password email pw) := by
  obtain ⟨rfl, -, hashed, stored, verified⟩ := checkLogin_some checked
  obtain ⟨loadedEmail, row, member, later⟩ := knows account rfl
  have rowHash : row.passwordHash = some hashed := later.hash.trans stored
  have rowEmail : keys.collation.holds row.email email = true := by rw [later.email (by simp [stored]), loadedEmail]
  refine ⟨row, member, later.id, ?_⟩
  rcases sound.origin row member with ⟨registeredEmail, registeredPw, registered⟩ | external
  · obtain ⟨salt, hash⟩ := registered.hash
    obtain rfl : hashed = keys.hasher.hash salt registeredPw := Option.some.inj (rowHash.symm.trans hash)
    rw [verifyPassword_hash, Except.ok.injEq, decide_eq_true_iff] at verified
    subst verified
    rw [registered.email, Collation.holds_some] at rowEmail
    exact ⟨registeredEmail, rowEmail, registered⟩
  · rw [external.hash] at rowHash
    cases rowHash

theorem Step.effect {action : Action} {phase next : Phase} (step : Step keys action s phase after next)
    (sound : Sound keys s) (knows : Knows keys s phase)
    (genuine : ∀ now token, action = .present now (some token) → (keys.jwt.decode now token).isSome = true →
      ∃ signIn ∈ s.signIns, keys.jwt.encode signIn.session = token) :
    Sound keys after ∧ Grows s after ∧ Knows keys after next := by
  cases step with
  | rejected ends => exact ⟨sound, .refl s, by cases next <;> trivial⟩
  | free => exact ⟨sound, .refl s, trivial⟩
  | inserted inserted =>
    refine ⟨sound.register inserted, ?_, List.mem_cons_self⟩
    obtain ⟨-, rfl⟩ := toUsers_insertAccount inserted
    exact { Grows.refl s with
      accounts := fun row member => ⟨row, List.mem_append_left _ member, .refl row⟩
      registrations := List.subset_cons_self _ _ }
  | found read =>
    refine ⟨sound, .refl s, ?_⟩
    rintro account rfl
    have member := List.mem_filter.mp (scalarOneOrNone_some read)
    exact ⟨member.2, account, member.1, .refl account⟩
  | verified checked =>
    exact ⟨sound.signIn (sound.verified knows checked), { Grows.refl s with signIns := List.subset_cons_self _ _ }, trivial⟩
  | selected read =>
    refine ⟨sound, .refl s, ?_⟩
    rintro user rfl
    have member := List.mem_filter.mp (scalarOneOrNone_some read)
    obtain ⟨row, known, rfl⟩ := List.mem_map.mp member.1
    exact ⟨row, known, rfl, member.2⟩
  | upserted read wrote => exact sound.upsert knows read wrote
  | issued read =>
    obtain ⟨named, known, id, sub⟩ := knows
    have found := List.find?_some read
    obtain rfl := sound.row_unique (List.mem_of_find?_eq_some read) known ((by simpa using found : _ = _).trans id.symm)
    have external := sound.external_of_sub known (Collation.holds_some_of sub)
    refine ⟨sound.signIn ⟨_, known, rfl, external.hash, sub⟩, ?_, trivial⟩
    exact { Grows.refl s with signIns := List.subset_cons_self _ _ }
  | decoded read =>
    exact ⟨sound, .refl s, readSubject_signed read fun token presented => genuine _ token (by rw [presented])⟩
  | authenticated active =>
    obtain ⟨member, rfl, isActive⟩ := activeUser_ok active
    obtain ⟨signIn, issued, sub, valid⟩ := knows
    obtain ⟨row, known, id, identifies⟩ := sound.signed signIn issued
    obtain rfl := sound.row_unique known member (id.trans sub)
    exact ⟨sound, .refl s, isActive, signIn, issued, sub, valid, identifies⟩

theorem setActive_later (userId : Str) (isActive : Bool) (row : Account) : Later row (setActive userId isActive row) := by
  unfold setActive
  split
  · exact ⟨rfl, rfl, rfl, fun _ => rfl⟩
  · exact .refl row

theorem Sound.setActive (sound : Sound keys s) (userId : Str) (isActive : Bool) :
    Sound keys { s with accounts := s.accounts.map (setActive userId isActive) } := by
  have same (row : Account) : (Accounts.setActive userId isActive row).toUser = row.toUser := by
    unfold Accounts.setActive
    split <;> rfl
  refine sound.map ?_ ?_ fun row _ => setActive_later userId isActive row
  · have users : toUsers (s.accounts.map (Accounts.setActive userId isActive)) = toUsers s.accounts := by
      simp [toUsers, same]
    rw [users]
    exact sound.distinct
  · intro first memberFirst second memberSecond
    obtain ⟨before, wasFirst, rfl⟩ := List.mem_map.mp memberFirst
    obtain ⟨other, wasSecond, rfl⟩ := List.mem_map.mp memberSecond
    rw [same, same]
    exact sound.emails before wasFirst other wasSecond

end Steps

section Runs

variable {keys : Keys} {ι : Type} [DecidableEq ι] {c : Config ι Shared Phase}

theorem reachable_sound (reached : (accountPlane keys ι).system.Reachable (Unforged keys) c) :
    Interleaving.Holds (Sound keys) (fun _ => Knows keys) c := by
  refine Interleaving.interference_free _ _ _ _ ?_ ?_ ?_ ?_ reached
  · rintro shared rfl
    refine ⟨⟨.nil, ?_, ?_, ?_, ?_, ?_, ?_⟩, fun _ => trivial⟩ <;> simp [DistinctEmails]
  · intro c p action shared phase inv unforged acted
    have effect := (act_step acted).effect inv.shared (inv.procs p) (by rintro now token rfl; exact unforged)
    exact ⟨effect.1, effect.2.2⟩
  · intro c p action shared phase other inv unforged acted _
    have effect := (act_step acted).effect inv.shared (inv.procs p) (by rintro now token rfl; exact unforged)
    exact (inv.procs other).grows effect.2.1
  · rintro c ⟨userId, isActive⟩ shared inv - ⟨⟩
    exact ⟨inv.shared.setActive userId isActive,
      fun p => (inv.procs p).grows (.of_map fun row _ => setActive_later userId isActive row)⟩

theorem Means.Identifies.unique {s : Shared} (sound : Sound keys s) {means : Means} {first second : Account}
    (identifies : means.Identifies keys s first) (also : means.Identifies keys s second) (member : first ∈ s.accounts)
    (memberToo : second ∈ s.accounts) : second = first := by
  refine sound.row_unique memberToo member ?_
  cases means with
  | password email pw =>
    obtain ⟨own, alike, registered⟩ := identifies
    obtain ⟨other, alikeToo, registeredToo⟩ := also
    refine sound.emails second memberToo first member ?_
    rw [registered.email, registeredToo.email]
    exact Collation.same_trans alikeToo (Collation.same_symm alike)
  | oauth sub =>
    refine sound.distinct.subs second.toUser (List.mem_map_of_mem memberToo) first.toUser (List.mem_map_of_mem member) ?_
    exact Collation.clashes_of_holds also.2 identifies.2

-- A request is authenticated only as the one account that a session still running was issued for, by its password or
-- by a subject that the issuer vouched for; and the account was active then.
theorem authenticated_as (reached : (accountPlane keys ι).system.Reachable (Unforged keys) c) {p : ι} {account : Account}
    {now : Int} (authenticated : c.procs p = .authenticated account now) :
    account.isActive = true ∧ ∃ signIn ∈ c.shared.signIns, signIn.session.sub = account.id ∧
      (signIn.session.iat ≤ now ∧ now < signIn.session.iat + keys.oauth.jwtTtlSeconds) ∧
      signIn.means.Identifies keys c.shared account ∧
      ∀ other ∈ c.shared.accounts, signIn.means.Identifies keys c.shared other → other.id = account.id := by
  have inv := reachable_sound reached
  have knows := inv.procs p
  rw [authenticated] at knows
  obtain ⟨active, signIn, issued, sub, valid, identifies⟩ := knows
  rw [SignIn.valid, inv.shared.lifetime signIn issued] at valid
  obtain ⟨row, member, id, found⟩ := inv.shared.signed signIn issued
  refine ⟨active, signIn, issued, sub, valid, identifies, fun other known also => ?_⟩
  rw [found.unique inv.shared also member known, id, sub]

theorem Step.registers {s after : Shared} {action : Action} {phase : Phase} {registration : Registration}
    (step : Step keys action s phase after (.registered registration)) (sound : Sound keys s) :
    ∀ other ∈ s.registrations, other.email ≠ registration.email := by
  cases step with
  | rejected ends => cases ends
  | inserted inserted =>
    have grown := sound.register inserted
    have once := grown.once
    rw [List.map_cons, List.nodup_cons] at once
    exact fun other recorded same => once.1 (List.mem_map.mpr ⟨other, recorded, same⟩)

def Single (c : Config ι Shared Phase) : Prop :=
  ∀ p q first second, c.procs p = .registered first → c.procs q = .registered second → first.email = second.email → p = q

theorem registered_once (reached : (accountPlane keys ι).system.Reachable (Unforged keys) c) {p q : ι}
    {first second : Registration} (firstDone : c.procs p = .registered first)
    (secondDone : c.procs q = .registered second) (different : p ≠ q) : first.email ≠ second.email := by
  suffices single : Single c from fun same => different (single p q first second firstDone secondDone same)
  refine (reached.assuming fun _ => reachable_sound).invariant ?_ ?_
  · rintro state ⟨-, idle⟩ p q first second firstDone
    rw [idle p] at firstDone
    cases firstDone
  · rintro state (⟨r, action⟩ | event) after single ⟨-, known⟩ stepped p q first second firstDone secondDone same
    · obtain ⟨shared, phase, acted, rfl⟩ := Interleaving.step_own.mp stepped
      have step := act_step acted
      have earlier (other : ι) (registration : Registration) (done : state.procs other = .registered registration) :
          registration ∈ state.shared.registrations := by
        have knows := known.procs other
        rwa [done] at knows
      by_cases isFirst : p = r <;> by_cases isSecond : q = r
      · rw [isFirst, isSecond]
      · subst isFirst
        simp only [Function.update_self, Function.update_of_ne isSecond] at firstDone secondDone
        subst firstDone
        exact absurd same.symm (step.registers known.shared second (earlier q second secondDone))
      · subst isSecond
        simp only [Function.update_self, Function.update_of_ne isFirst] at firstDone secondDone
        subst secondDone
        exact absurd same (step.registers known.shared first (earlier p first firstDone))
      · simp only [Function.update_of_ne isFirst, Function.update_of_ne isSecond] at firstDone secondDone
        exact single p q first second firstDone secondDone same
    · obtain ⟨shared, -, rfl⟩ := Interleaving.step_env.mp stepped
      exact single p q first second firstDone secondDone same

theorem selectByEmail_unique {s : Shared} (sound : Sound keys s) {row : Account} {email : Str}
    (member : row ∈ s.accounts) (named : row.email = some email) :
    selectByEmail keys.collation s.accounts email = .ok (some row) := by
  have only : (s.accounts.filter fun row => keys.collation.holds row.email email) = [row] := by
    refine filter_unique (sound.ids.of_map _) (by simp [named]) member fun other known held => ?_
    exact sound.row_unique known member (sound.emails other known row member (by rwa [named]))
  rw [selectByEmail, only]
  rfl

theorem selectAccount_unique {s : Shared} (sound : Sound keys s) {row : Account} (member : row ∈ s.accounts) :
    selectAccount s.accounts row.id = .ok (some row) := by
  have only : s.accounts.filter (·.id == row.id) = [row] :=
    filter_unique (sound.ids.of_map _) (by simp) member fun other known same =>
      sound.row_unique known member (by simpa using same)
  rw [selectAccount, only]
  rfl

theorem session_accepted_iff (reached : (accountPlane keys ι).system.Reachable (Unforged keys) c) {signIn : SignIn}
    (issued : signIn ∈ c.shared.signIns) (named : signIn.session.sub ≠ []) (now : Int) :
    (∃ account, getCurrentUser keys.jwt now (some (keys.jwt.encode signIn.session)) c.shared.accounts = .ok account) ↔
      (signIn.session.iat ≤ now ∧ now < signIn.session.iat + keys.oauth.jwtTtlSeconds) ∧
        ∃ row ∈ c.shared.accounts, row.id = signIn.session.sub ∧ row.isActive = true := by
  have sound := (reachable_sound reached).shared
  obtain ⟨row, member, id, -⟩ := sound.signed signIn issued
  rw [← sound.lifetime signIn issued]
  have subject : Json.get (payload signIn.session) "sub".toList = .str signIn.session.sub := rfl
  by_cases valid : signIn.session.iat ≤ now ∧ now < signIn.session.exp
  · have read : readSubject keys.jwt now (some (keys.jwt.encode signIn.session)) = .ok row.id := by
      obtain ⟨c, rest, spelled⟩ := List.exists_cons_of_ne_nil named
      simp only [readSubject, keys.jwt.decode_encode, if_pos valid, subject, spelled, id]
    have selected := selectAccount_unique sound member
    constructor
    · rintro ⟨account, accepted⟩
      obtain ⟨known, same, active⟩ := activeUser_ok (by rwa [getCurrentUser, read] at accepted)
      exact ⟨valid, account, known, same.trans id, active⟩
    · rintro ⟨-, other, known, same, active⟩
      obtain rfl := sound.row_unique known member (same.trans id.symm)
      refine ⟨other, ?_⟩
      rw [getCurrentUser, read, Except.ok_bind, activeUser, selected]
      simp [active]
  · refine iff_of_false ?_ fun accepted => valid accepted.1
    rintro ⟨account, accepted⟩
    simp [getCurrentUser, readSubject, keys.jwt.decode_encode, if_neg valid] at accepted

theorem login_stays_possible (reached : (accountPlane keys ι).system.Reachable (Unforged keys) c)
    {registration : Registration} (recorded : registration ∈ c.shared.registrations)
    (active : ∀ row ∈ c.shared.accounts, row.id = registration.userId → row.isActive = true) {p : ι}
    (idle : c.procs p = .idle) (now : Int) :
    (accountPlane keys ι).system.run c
        [.own p (.login registration.email registration.password), .own p (.verify now)] =
      some ⟨c.shared.signIn (.password registration.email registration.password)
          (createJwt keys.oauth now registration.userId),
        Function.update c.procs p (.signedIn (keys.jwt.encode (createJwt keys.oauth now registration.userId)))⟩ := by
  have sound := (reachable_sound reached).shared
  obtain ⟨row, member, id, registered⟩ := sound.kept registration recorded
  obtain ⟨salt, hash⟩ := registered.hash
  have selected := selectByEmail_unique sound member registered.email
  have checked : checkLogin keys.hasher (some row) registration.password = .ok (some row) := by
    simp [checkLogin, hash, active row member id, verifyPassword_hash]
  have ran : ((accountPlane keys ι).alone p).run (c.shared, c.procs p)
      [.login registration.email registration.password, .verify now] =
      some (c.shared.signIn (.password registration.email registration.password)
        (createJwt keys.oauth now registration.userId),
        .signedIn (keys.jwt.encode (createJwt keys.oauth now registration.userId))) := by
    simp [Interleaving.alone, accountPlane, act, idle, selected, checked, id]
  exact Interleaving.run_alone ran

end Runs

section Example

def unary (value : Nat) : Str := List.replicate value '1' ++ ['0']

def readUnary : Str → Option (Nat × Str)
  | '0' :: rest => some (0, rest)
  | '1' :: rest => (readUnary rest).map fun read => (read.1 + 1, read.2)
  | _ => none

theorem readUnary_unary (value : Nat) (rest : Str) : readUnary (unary value ++ rest) = some (value, rest) := by
  induction value with
  | zero => rfl
  | succ value ih =>
    have shape : unary (value + 1) ++ rest = '1' :: (unary value ++ rest) := rfl
    rw [shape, readUnary, ih]
    rfl

def spell (value : Int) : Str := unary value.toNat ++ unary (-value).toNat

def readSpelled (text : Str) : Option (Int × Str) := do
  let (positive, rest) ← readUnary text
  let (negative, rest) ← readUnary rest
  return (positive - negative, rest)

theorem readSpelled_spell (value : Int) (rest : Str) : readSpelled (spell value ++ rest) = some (value, rest) := by
  have whole : (value.toNat : Int) - (-value).toNat = value := by omega
  simp only [readSpelled, spell, List.append_assoc, readUnary_unary, Option.bind_eq_bind, Option.bind_some,
    Option.pure_def, whole]

-- Session tokens in plain text, for a world without forgers.
def plainJwt : SessionJwt where
  encode session := spell session.iat ++ (spell session.exp ++ session.sub)
  decode now token := do
    let (iat, rest) ← readSpelled token
    let (exp, sub) ← readSpelled rest
    if iat ≤ now ∧ now < exp then some (payload ⟨sub, iat, exp⟩) else none
  decode_encode now session := by simp [readSpelled_spell]

def plainHasher : PasswordHasher where
  hash _ pw := pw
  verify hashed pw := if pw = hashed then .ok true else .error verifyMismatchError
  verify_hash _ _ _ := rfl

def plainOauth : Oauth where
  issuer := []
  clientId := []
  clientSecret := []
  redirectUri := []
  baseScopes := []
  dnsScope := []
  accessTokenSkew := 0
  jwtTtlSeconds := 5
  sha256 := id
  jwt := ⟨fun _ => .error OauthCf.invalidToken, fun _ _ _ _ => .error OauthCf.invalidToken⟩

def plainKeys : Keys := ⟨plainOauth, plainHasher, plainJwt, .ignoringCase⟩

def ada : Registration := ⟨['1'], "ada@example.com".toList, "engine".toList⟩

def bea : Registration := ⟨['3'], "bea@example.com".toList, "engine".toList⟩

abbrev Requests := Config Nat Shared Phase

def nobody : Requests := ⟨{}, fun _ => .idle⟩

theorem nobody_starts : (accountPlane plainKeys Nat).system.init nobody := ⟨rfl, fun _ => rfl⟩

deriving instance DecidableEq for Session

def adasSession : Session := createJwt plainOauth 7 ada.userId

-- Two registrations of one e-mail at once beside another one, then a login, and a request with the session.
def adasDay : List (Move Nat Action Event) := [
  .own 0 (.register ada.email ada.password), .own 1 (.register ada.email "other".toList),
  .own 4 (.register bea.email bea.password), .own 0 (.insert ada.userId ['s']), .own 1 (.insert ['2'] ['t']),
  .own 4 (.insert bea.userId ['u']), .own 2 (.login ada.email ada.password), .own 2 (.verify 7),
  .own 3 (.present 11 (some (plainJwt.encode adasSession))), .own 3 .readUser]

theorem adas_day {β : Type} {shows : Requests → β} {value : β}
    (ran : (((accountPlane plainKeys Nat).system.checked (Unforged plainKeys)).run nobody adasDay).map shows =
      some value) :
    ∃ c, (accountPlane plainKeys Nat).system.Reachable (Unforged plainKeys) c ∧ shows c = value :=
  System.Reachable.of_run nobody_starts ran

def Phase.account : Phase → Option (Account × Int)
  | .authenticated account now => some (account, now)
  | _ => none

def Phase.registration : Phase → Option Registration
  | .registered registration => some registration
  | _ => none

def Phase.isIdle : Phase → Bool
  | .idle => true
  | _ => false

theorem Phase.account_some {phase : Phase} {account : Account} {now : Int} (shown : phase.account = some (account, now)) :
    phase = .authenticated account now := by
  cases phase <;> simp_all [Phase.account]

theorem Phase.registration_some {phase : Phase} {registration : Registration}
    (shown : phase.registration = some registration) : phase = .registered registration := by
  cases phase <;> simp_all [Phase.registration]

theorem Phase.isIdle_true {phase : Phase} (shown : phase.isIdle = true) : phase = .idle := by
  cases phase <;> simp_all [Phase.isIdle]

def adasAccount : Account := localAccount plainHasher ada.userId ['s'] ada.email ada.password

theorem ada_authenticated : ∃ c : Requests, c.procs 3 = .authenticated adasAccount 11 ∧
    ∃ signIn ∈ c.shared.signIns, signIn.session.sub = adasAccount.id ∧
      signIn.means.Identifies plainKeys c.shared adasAccount := by
  have ran : (((accountPlane plainKeys Nat).system.checked (Unforged plainKeys)).run nobody adasDay).map
      (fun c => (c.procs 3).account) = some (some (adasAccount, 11)) := by
    decide +kernel
  obtain ⟨c, reached, shown⟩ := adas_day ran
  have authenticated := Phase.account_some shown
  obtain ⟨-, signIn, issued, sub, -, identifies, -⟩ := authenticated_as reached authenticated
  exact ⟨c, authenticated, signIn, issued, sub, identifies⟩

theorem both_registered : ∃ c : Requests, c.procs 0 = .registered ada ∧ c.procs 4 = .registered bea ∧
    ada.email ≠ bea.email := by
  have ran : (((accountPlane plainKeys Nat).system.checked (Unforged plainKeys)).run nobody adasDay).map
      (fun c => ((c.procs 0).registration, (c.procs 4).registration)) = some (some ada, some bea) := by
    decide +kernel
  obtain ⟨c, reached, shown⟩ := adas_day ran
  obtain ⟨first, second⟩ := Prod.mk.inj shown
  have firstDone := Phase.registration_some first
  have secondDone := Phase.registration_some second
  exact ⟨c, firstDone, secondDone, registered_once reached firstDone secondDone (by decide)⟩

theorem adas_session_ends : ∃ c : Requests, ∀ now,
    (∃ account, getCurrentUser plainJwt now (some (plainJwt.encode adasSession)) c.shared.accounts = .ok account) ↔
      (7 ≤ now ∧ now < 12) ∧ ∃ row ∈ c.shared.accounts, row.id = ada.userId ∧ row.isActive = true := by
  have ran : (((accountPlane plainKeys Nat).system.checked (Unforged plainKeys)).run nobody adasDay).map
      (fun c => c.shared.signIns.map (·.session)) = some [adasSession] := by
    decide +kernel
  obtain ⟨c, reached, shown⟩ := adas_day ran
  obtain ⟨signIn, issued, same⟩ := List.mem_map.mp (shown ▸ List.mem_singleton_self adasSession)
  refine ⟨c, fun now => ?_⟩
  have accepted := session_accepted_iff reached issued (by rw [same]; decide) now
  rwa [same] at accepted

theorem bea_logs_in : ∃ c after : Requests, (accountPlane plainKeys Nat).system.run c
    [.own 5 (.login bea.email bea.password), .own 5 (.verify 9)] = some after := by
  have ran : (((accountPlane plainKeys Nat).system.checked (Unforged plainKeys)).run nobody adasDay).map
      (fun c => ((c.procs 5).isIdle, c.shared.registrations, c.shared.accounts.map (·.isActive))) =
      some (true, [bea, ada], [true, true]) := by
    decide +kernel
  obtain ⟨c, reached, shown⟩ := adas_day ran
  simp only [Prod.mk.injEq] at shown
  obtain ⟨idle, registrations, active⟩ := shown
  have allActive (row : Account) (member : row ∈ c.shared.accounts) (_ : row.id = bea.userId) : row.isActive = true := by
    have among : row.isActive ∈ [true, true] := active ▸ List.mem_map_of_mem member
    simpa using among
  have recorded : bea ∈ c.shared.registrations := by
    rw [registrations]
    exact List.mem_cons_self
  exact ⟨c, _, login_stays_possible reached recorded allActive (Phase.isIdle_true idle) 9⟩

end Example

end CfProxy.Accounts
