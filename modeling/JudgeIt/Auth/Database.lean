import JudgeIt.Async.Environment
import JudgeIt.Auth.Call
import JudgeIt.Data.AutoTable

/-!
# The tables for users

Users, their accounts with OAuth providers, and password reset tokens. What the schema enforces is
part of the data: keys that count up, unique addresses, names and provider accounts, and foreign
keys. A write that would break one of them is refused, and refused as a whole.

`AuthDatabase.Answers` is the environment in which any call may reject at any time; a rejected write
changes nothing. No write removes a row or changes whom it is about, which is `Extends`, and only
two calls touch the stored hash of a refresh token, which is `Answers.rtOf_eq`.
-/

namespace JudgeIt

open Async

/-- The unique key of an account. -/
def Account.providerKey (a : Account) : JsString × JsString := (a.provider, a.providerAccountId)

/-- The user with other hashes. -/
def User.withHashes (u : User) (hashes : Option JsString × Option JsString) : User :=
  { u with hash := hashes.1, hashedRt := hashes.2 }

/-- The account with other tokens of its provider. -/
def Account.withTokens (a : Account) (accessToken refreshToken : JsString) : Account :=
  { a with accessToken := accessToken, refreshToken := refreshToken }

/-- The reset token, used. -/
def PasswordResetToken.markUsed (t : PasswordResetToken) : PasswordResetToken :=
  { t with used := true }

section Fields

variable {u : User} {hashes : Option JsString × Option JsString} {a : Account}
  {accessToken refreshToken : JsString} {t : PasswordResetToken}

@[simp] theorem User.withHashes_id : (u.withHashes hashes).id = u.id := rfl

@[simp] theorem User.withHashes_email : (u.withHashes hashes).email = u.email := rfl

@[simp] theorem User.withHashes_username : (u.withHashes hashes).username = u.username := rfl

@[simp] theorem User.withHashes_role : (u.withHashes hashes).role = u.role := rfl

@[simp] theorem User.withHashes_hash : (u.withHashes hashes).hash = hashes.1 := rfl

@[simp] theorem User.withHashes_hashedRt : (u.withHashes hashes).hashedRt = hashes.2 := rfl

@[simp] theorem Account.withTokens_id : (a.withTokens accessToken refreshToken).id = a.id := rfl

@[simp] theorem Account.withTokens_userId :
    (a.withTokens accessToken refreshToken).userId = a.userId := rfl

@[simp] theorem Account.withTokens_providerKey :
    (a.withTokens accessToken refreshToken).providerKey = a.providerKey := rfl

@[simp] theorem PasswordResetToken.markUsed_id : t.markUsed.id = t.id := rfl

@[simp] theorem PasswordResetToken.markUsed_userId : t.markUsed.userId = t.userId := rfl

@[simp] theorem PasswordResetToken.markUsed_tokenHash : t.markUsed.tokenHash = t.tokenHash := rfl

@[simp] theorem PasswordResetToken.markUsed_createdAt : t.markUsed.createdAt = t.createdAt := rfl

@[simp] theorem PasswordResetToken.markUsed_expiresAt : t.markUsed.expiresAt = t.expiresAt := rfl

end Fields

/-- The first of the tokens that were created last. -/
def newest : List PasswordResetToken → Option PasswordResetToken
  | [] => none
  | t :: l =>
    match newest l with
    | none => some t
    | some t' => if t.createdAt < t'.createdAt then some t' else some t

/-- The tables. -/
structure AuthDatabase where
  users : AutoTable User.id
  accounts : AutoTable Account.id
  resetTokens : AutoTable PasswordResetToken.id
  nodup_email : (users.rows.map User.email).Nodup
  nodup_username : (users.rows.map User.username).Nodup
  nodup_providerKey : (accounts.rows.map Account.providerKey).Nodup
  account_user : ∀ a ∈ accounts.rows, a.userId ∈ users.rows.map User.id
  token_user : ∀ t ∈ resetTokens.rows, t.userId ∈ users.rows.map User.id

namespace AuthDatabase

/-- The tables before anyone has registered. -/
def empty : AuthDatabase where
  users := .empty
  accounts := .empty
  resetTokens := .empty
  nodup_email := List.nodup_nil
  nodup_username := List.nodup_nil
  nodup_providerKey := List.nodup_nil
  account_user := by simp
  token_user := by simp

variable (db : AuthDatabase)

/-! ## Queries -/

/-- `prisma.user.findUnique({ where: { email } })`. -/
def findByEmail (email : JsString) : Option User := db.users.rows.find? (·.email = email)

/-- `prisma.user.findFirst({ where: { id } })`. -/
def findById (id : ℤ) : Option User := db.users.find? id

/-- `prisma.account.findUnique`, with the user. -/
def findAccountByProvider (provider providerAccountId : JsString) : Option (Account × User) :=
  (db.accounts.rows.find? (·.providerKey = (provider, providerAccountId))).bind fun account ↦
    (db.users.find? account.userId).map fun user ↦ (account, user)

/-- `prisma.user.findUnique({ where: { email }, include: { accounts: true } })`. -/
def findWithAccounts (email : JsString) : Option (User × List Account) :=
  (db.findByEmail email).map fun user ↦
    (user, db.accounts.rows.filter (·.userId = user.id))

/-- `prisma.passwordResetToken.findFirst`, ordered by `createdAt` from the newest. -/
def getPasswordResetToken (token : JsString) : Option PasswordResetToken :=
  newest (db.resetTokens.rows.filter (·.tokenHash = token))

/-- The stored hash of the refresh token of a user, when there is one. -/
def rtOf (userId : ℤ) : Option JsString := (db.users.find? userId).bind (·.hashedRt)

/-! ## Writes -/

/-- The row `prisma.user.create` stores. -/
def newUser (email username : JsString) (hash : Option JsString) : User where
  id := db.users.next
  email := email
  username := username
  hash := hash
  hashedRt := none
  role := [.USER]

theorem newUser_id {email username : JsString} {hash : Option JsString} :
    (db.newUser email username hash).id = db.users.next := rfl

/-- `prisma.user.create`: refused when the address or the name is taken. -/
def createUser (email username : JsString) (hash : Option JsString) :
    Option (User × AuthDatabase) :=
  if h : email ∉ db.users.rows.map User.email ∧ username ∉ db.users.rows.map User.username then
    some (db.newUser email username hash,
      { db with
        users := db.users.insert (db.newUser email username hash) db.newUser_id
        nodup_email := by
          rw [AutoTable.rows_insert, List.map_append, List.nodup_append]
          refine ⟨db.nodup_email, List.nodup_singleton _, ?_⟩
          rintro e he e' he' rfl
          obtain rfl : e = email := List.mem_singleton.mp he'
          exact h.1 he
        nodup_username := by
          rw [AutoTable.rows_insert, List.map_append, List.nodup_append]
          refine ⟨db.nodup_username, List.nodup_singleton _, ?_⟩
          rintro e he e' he' rfl
          obtain rfl : e = username := List.mem_singleton.mp he'
          exact h.2 he
        account_user := fun a ha ↦ by
          rw [AutoTable.rows_insert, List.map_append]
          exact List.mem_append_left _ (db.account_user a ha)
        token_user := fun t ht ↦ by
          rw [AutoTable.rows_insert, List.map_append]
          exact List.mem_append_left _ (db.token_user t ht) })
  else none

/-- The tables with the hashes of one user replaced. -/
def modifyUser (id : ℤ)
    (f : Option JsString × Option JsString → Option JsString × Option JsString) : AuthDatabase :=
  { db with
    users := db.users.modify id (fun u ↦ u.withHashes (f (u.hash, u.hashedRt)))
      fun _ ↦ User.withHashes_id
    nodup_email := by
      rw [AutoTable.map_modify fun _ ↦ User.withHashes_email]
      exact db.nodup_email
    nodup_username := by
      rw [AutoTable.map_modify fun _ ↦ User.withHashes_username]
      exact db.nodup_username
    account_user := by
      rw [AutoTable.map_modify fun _ ↦ User.withHashes_id]
      exact db.account_user
    token_user := by
      rw [AutoTable.map_modify fun _ ↦ User.withHashes_id]
      exact db.token_user }

/-- `prisma.user.update` of `hashedRt`: refused without such a user. -/
def updateRtHash (userId : ℤ) (rt : JsString) : Option AuthDatabase :=
  if (db.users.find? userId).isSome then some (db.modifyUser userId fun h ↦ (h.1, some rt))
  else none

/-- `prisma.user.updateMany` that sets `hashedRt` to `null`. -/
def deleteRt (userId : ℤ) : AuthDatabase := db.modifyUser userId fun h ↦ (h.1, none)

/-- `prisma.user.update` of `hash`: refused without such a user. -/
def changePassword (userId : ℤ) (newPass : JsString) : Option AuthDatabase :=
  if (db.users.find? userId).isSome then some (db.modifyUser userId fun h ↦ (some newPass, h.2))
  else none

/-- `prisma.account.create`: refused without such a user, and when the account is taken. -/
def createAccount (userId : ℤ) (provider providerAccountId accessToken refreshToken : JsString) :
    Option AuthDatabase :=
  if h : userId ∈ db.users.rows.map User.id ∧
      (provider, providerAccountId) ∉ db.accounts.rows.map Account.providerKey then
    some { db with
      accounts := db.accounts.insert
        ⟨db.accounts.next, userId, provider, providerAccountId, accessToken, refreshToken⟩ rfl
      nodup_providerKey := by
        rw [AutoTable.rows_insert, List.map_append, List.nodup_append]
        refine ⟨db.nodup_providerKey, List.nodup_singleton _, ?_⟩
        rintro k hk k' hk' rfl
        obtain rfl : k = (provider, providerAccountId) := List.mem_singleton.mp hk'
        exact h.2 hk
      account_user := fun a ha ↦ by
        rcases List.mem_append.mp ha with ha | ha
        · exact db.account_user a ha
        · rw [List.mem_singleton.mp ha]
          exact h.1 }
  else none

/-- `prisma.account.update` of the tokens of the provider: refused without such an account. -/
def updateOauthAccount (id : ℤ) (accessToken refreshToken : JsString) : Option AuthDatabase :=
  if (db.accounts.find? id).isSome then
    some { db with
      accounts := db.accounts.modify id (fun a ↦ a.withTokens accessToken refreshToken)
        fun _ ↦ Account.withTokens_id
      nodup_providerKey := by
        rw [AutoTable.map_modify fun _ ↦ Account.withTokens_providerKey]
        exact db.nodup_providerKey
      account_user := fun a ha ↦ by
        obtain ⟨b, hb, rfl⟩ := (AutoTable.mem_modify fun _ ↦ Account.withTokens_id).mp ha
        have huser := db.account_user b hb
        split <;> exact huser }
  else none

/-- `prisma.user.create` with an account: both rows or none. -/
def createOauthUser
    (email username provider providerAccountId accessToken refreshToken : JsString) :
    Option (User × AuthDatabase) :=
  (db.createUser email username none).bind fun created ↦
    (created.2.createAccount created.1.id provider providerAccountId accessToken
      refreshToken).map fun db' ↦ (created.1, db')

/-- `prisma.passwordResetToken.create`, at the given time: refused without such a user. -/
def createPasswordResetToken (userId : ℤ) (hashedToken : JsString) (expiresAt createdAt : ℤ) :
    Option AuthDatabase :=
  if h : userId ∈ db.users.rows.map User.id then
    some { db with
      resetTokens := db.resetTokens.insert
        ⟨db.resetTokens.next, userId, hashedToken, createdAt, expiresAt, false⟩ rfl
      token_user := fun t ht ↦ by
        rcases List.mem_append.mp ht with ht | ht
        · exact db.token_user t ht
        · rw [List.mem_singleton.mp ht]
          exact h }
  else none

/-- `prisma.passwordResetToken.update` of `used`: refused without such a token. -/
def markTokenUsed (id : ℤ) : Option AuthDatabase :=
  if (db.resetTokens.find? id).isSome then
    some { db with
      resetTokens := db.resetTokens.modify id PasswordResetToken.markUsed
        fun _ ↦ PasswordResetToken.markUsed_id
      token_user := fun t ht ↦ by
        obtain ⟨b, hb, rfl⟩ := (AutoTable.mem_modify fun _ ↦ PasswordResetToken.markUsed_id).mp ht
        have huser := db.token_user b hb
        split <;> exact huser }
  else none

/-- The environment in which any call may reject. A rejected write changes nothing, and nothing is
said about the calls that do not concern the tables. -/
def Answers : Env AuthDatabase AuthCall.Res := fun db op r db' ↦
  match op, r with
  | .findByEmail email, .ok user => db' = db ∧ user = db.findByEmail email
  | .findById id, .ok user => db' = db ∧ user = db.findById id
  | .findAccountByProvider provider id, .ok found =>
    db' = db ∧ found = db.findAccountByProvider provider id
  | .findWithAccounts email, .ok found => db' = db ∧ found = db.findWithAccounts email
  | .getPasswordResetToken token, .ok found => db' = db ∧ found = db.getPasswordResetToken token
  | .createUser email username hash, .ok user =>
    db.createUser email username (some hash) = some (user, db')
  | .createOauthUser email username provider id at' rt, .ok user =>
    db.createOauthUser email username provider id at' rt = some (user, db')
  | .updateRtHash id rt, .ok _ => db.updateRtHash id rt = some db'
  | .deleteRt id, .ok _ => db' = db.deleteRt id
  | .changePassword id hash, .ok _ => db.changePassword id hash = some db'
  | .linkOauthUser userId provider id at' rt, .ok _ =>
    db.createAccount userId provider id at' rt = some db'
  | .updateOauthAccount id at' rt, .ok _ => db.updateOauthAccount id at' rt = some db'
  | .createPasswordResetToken userId token expiresAt, .ok _ =>
    ∃ createdAt, db.createPasswordResetToken userId token expiresAt createdAt = some db'
  | .markTokenUsed id, .ok _ => db.markTokenUsed id = some db'
  | _, _ => db' = db

/-! ## What the writes do -/

section Writes

variable {db} {db' : AuthDatabase} {id userId i : ℤ} {email username hashed : JsString}
  {provider providerAccountId accessToken refreshToken : JsString} {expiresAt createdAt : ℤ}
  {f : Option JsString × Option JsString → Option JsString × Option JsString} {user : User}
  {hash : Option JsString}

theorem findByEmail_eq_some_iff :
    db.findByEmail email = some user ↔ user ∈ db.users.rows ∧ user.email = email := by
  constructor
  · intro h
    exact ⟨List.mem_of_find?_eq_some h, by simpa using List.find?_some h⟩
  · rintro ⟨huser, rfl⟩
    cases hfind : db.findByEmail user.email with
    | none => simpa using List.find?_eq_none.mp hfind user huser
    | some u =>
      have hemail : u.email = user.email := by simpa using List.find?_some hfind
      rw [List.inj_on_of_nodup_map db.nodup_email (List.mem_of_find?_eq_some hfind) huser hemail]

theorem findByEmail_eq_none_iff :
    db.findByEmail email = none ↔ email ∉ db.users.rows.map User.email := by
  simp [findByEmail]

theorem of_createUser (h : db.createUser email username hash = some (user, db')) :
    user = db.newUser email username hash ∧ email ∉ db.users.rows.map User.email ∧
      db'.users.rows = db.users.rows ++ [user] ∧ db'.accounts = db.accounts ∧
      db'.resetTokens = db.resetTokens ∧
      ∀ i, db'.users.find? i = if i = user.id then some user else db.users.find? i := by
  rw [createUser] at h
  split at h
  · next hfree =>
    obtain ⟨rfl, rfl⟩ := Prod.mk.inj (Option.some.inj h)
    exact ⟨rfl, hfree.1, rfl, rfl, rfl, fun i ↦ AutoTable.find?_insert db.newUser_id⟩
  · cases h

theorem find?_modifyUser : (db.modifyUser id f).users.find? i
    = if i = id then (db.users.find? i).map fun u ↦ u.withHashes (f (u.hash, u.hashedRt))
      else db.users.find? i := AutoTable.find?_modify fun _ ↦ User.withHashes_id

theorem mem_modifyUser {u : User} : u ∈ (db.modifyUser id f).users.rows ↔ ∃ v ∈ db.users.rows,
    u = if v.id = id then v.withHashes (f (v.hash, v.hashedRt)) else v :=
  AutoTable.mem_modify fun _ ↦ User.withHashes_id

theorem updateRtHash_eq_some_iff : db.updateRtHash id hashed = some db' ↔
    (db.users.find? id).isSome ∧ db' = db.modifyUser id fun h ↦ (h.1, some hashed) := by
  rw [updateRtHash, Option.ite_none_right_eq_some, Option.some.injEq, eq_comm (a := db')]

theorem changePassword_eq_some_iff : db.changePassword id hashed = some db' ↔
    (db.users.find? id).isSome ∧ db' = db.modifyUser id fun h ↦ (some hashed, h.2) := by
  rw [changePassword, Option.ite_none_right_eq_some, Option.some.injEq, eq_comm (a := db')]

theorem of_createAccount
    (h : db.createAccount userId provider providerAccountId accessToken refreshToken = some db') :
    userId ∈ db.users.rows.map User.id ∧ db'.users = db.users ∧
      db'.resetTokens = db.resetTokens ∧ db'.accounts.rows = db.accounts.rows ++
        [⟨db.accounts.next, userId, provider, providerAccountId, accessToken, refreshToken⟩] := by
  rw [createAccount] at h
  split at h
  · next hfree =>
    obtain rfl := Option.some.inj h
    exact ⟨hfree.1, rfl, rfl, rfl⟩
  · cases h

theorem of_updateOauthAccount (h : db.updateOauthAccount id accessToken refreshToken = some db') :
    db'.users = db.users ∧ db'.resetTokens = db.resetTokens ∧
      db'.accounts.rows = db.accounts.rows.map fun a ↦
        if a.id = id then a.withTokens accessToken refreshToken else a := by
  rw [updateOauthAccount] at h
  split at h
  · obtain rfl := Option.some.inj h
    exact ⟨rfl, rfl, rfl⟩
  · cases h

theorem of_createOauthUser (h : db.createOauthUser email username provider providerAccountId
      accessToken refreshToken = some (user, db')) :
    ∃ db₁, db.createUser email username none = some (user, db₁) ∧
      db₁.createAccount user.id provider providerAccountId accessToken refreshToken
        = some db' := by
  rw [createOauthUser, Option.bind_eq_some_iff] at h
  obtain ⟨⟨user', db₁⟩, hcreate, h⟩ := h
  obtain ⟨db₂, haccount, heq⟩ := Option.map_eq_some_iff.mp h
  obtain ⟨rfl, rfl⟩ := Prod.mk.inj heq
  exact ⟨db₁, hcreate, haccount⟩

theorem of_createPasswordResetToken
    (h : db.createPasswordResetToken userId hashed expiresAt createdAt = some db') :
    db'.users = db.users ∧ db'.accounts = db.accounts ∧ db'.resetTokens.rows =
      db.resetTokens.rows ++
        [⟨db.resetTokens.next, userId, hashed, createdAt, expiresAt, false⟩] := by
  rw [createPasswordResetToken] at h
  split at h
  · obtain rfl := Option.some.inj h
    exact ⟨rfl, rfl, rfl⟩
  · cases h

theorem of_markTokenUsed (h : db.markTokenUsed id = some db') :
    db'.users = db.users ∧ db'.accounts = db.accounts ∧ db'.resetTokens.rows =
      db.resetTokens.rows.map fun t ↦ if t.id = id then t.markUsed else t := by
  rw [markTokenUsed] at h
  split at h
  · obtain rfl := Option.some.inj h
    exact ⟨rfl, rfl, rfl⟩
  · cases h

end Writes

/-- **What an answered call does to the tables**: nothing, or one of the writes. -/
inductive Effect (db : AuthDatabase) : Event AuthCall.Res → AuthDatabase → Prop
  | nothing {x : Event AuthCall.Res} : Effect db x db
  | createUser {email username hash : JsString} {user : User} {db' : AuthDatabase} :
      db.createUser email username (some hash) = some (user, db') →
      Effect db ⟨.createUser email username hash, .ok user⟩ db'
  | createOauthUser {email username provider id at' rt : JsString} {user : User}
      {db' : AuthDatabase} : db.createOauthUser email username provider id at' rt
        = some (user, db') →
      Effect db ⟨.createOauthUser email username provider id at' rt, .ok user⟩ db'
  | updateRtHash {id : ℤ} {rt : JsString} {db' : AuthDatabase} :
      db.updateRtHash id rt = some db' → Effect db ⟨.updateRtHash id rt, .ok ()⟩ db'
  | deleteRt {id : ℤ} : Effect db ⟨.deleteRt id, .ok ()⟩ (db.deleteRt id)
  | changePassword {id : ℤ} {hash : JsString} {db' : AuthDatabase} :
      db.changePassword id hash = some db' → Effect db ⟨.changePassword id hash, .ok ()⟩ db'
  | linkOauthUser {userId : ℤ} {provider id at' rt : JsString} {db' : AuthDatabase} :
      db.createAccount userId provider id at' rt = some db' →
      Effect db ⟨.linkOauthUser userId provider id at' rt, .ok ()⟩ db'
  | updateOauthAccount {id : ℤ} {at' rt : JsString} {db' : AuthDatabase} :
      db.updateOauthAccount id at' rt = some db' →
      Effect db ⟨.updateOauthAccount id at' rt, .ok ()⟩ db'
  | createPasswordResetToken {userId : ℤ} {token : JsString} {expiresAt createdAt : ℤ}
      {db' : AuthDatabase} :
      db.createPasswordResetToken userId token expiresAt createdAt = some db' →
      Effect db ⟨.createPasswordResetToken userId token expiresAt, .ok ()⟩ db'
  | markTokenUsed {id : ℤ} {db' : AuthDatabase} :
      db.markTokenUsed id = some db' → Effect db ⟨.markTokenUsed id, .ok ()⟩ db'

theorem Answers.effect {db db' : AuthDatabase} {op : AuthCall} {r : op.Res}
    (h : Answers db op r db') : Effect db ⟨op, r⟩ db' := by
  have hnothing : ∀ {x : Event AuthCall.Res}, db' = db → Effect db x db' := by
    rintro x rfl
    exact .nothing
  cases op with
  | hash _ | verify _ _ | signAsync _ _ | now | randomBytes | getId | sendMail _ =>
    exact hnothing h
  | findByEmail _ | findById _ | findAccountByProvider _ _ | findWithAccounts _
  | getPasswordResetToken _ =>
    rcases r with e | found
    · exact hnothing h
    · exact hnothing h.1
  | createUser _ _ _ =>
    rcases r with e | user
    · exact hnothing h
    · exact .createUser h
  | createOauthUser _ _ _ _ _ _ =>
    rcases r with e | user
    · exact hnothing h
    · exact .createOauthUser h
  | updateRtHash _ _ =>
    rcases r with e | _
    · exact hnothing h
    · exact .updateRtHash h
  | deleteRt _ =>
    rcases r with e | _
    · exact hnothing h
    · rw [show db' = _ from h]
      exact .deleteRt
  | changePassword _ _ =>
    rcases r with e | _
    · exact hnothing h
    · exact .changePassword h
  | linkOauthUser _ _ _ _ _ =>
    rcases r with e | _
    · exact hnothing h
    · exact .linkOauthUser h
  | updateOauthAccount _ _ _ =>
    rcases r with e | _
    · exact hnothing h
    · exact .updateOauthAccount h
  | createPasswordResetToken _ _ _ =>
    rcases r with e | _
    · exact hnothing h
    · obtain ⟨createdAt, h⟩ := h
      exact .createPasswordResetToken h
  | markTokenUsed _ =>
    rcases r with e | _
    · exact hnothing h
    · exact .markTokenUsed h

end AuthDatabase

end JudgeIt
