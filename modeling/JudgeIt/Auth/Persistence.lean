import JudgeIt.Async.Pool
import JudgeIt.Auth.Controller
import JudgeIt.Auth.Database

/-!
# What lasts

Nothing the service does removes a row or changes whom it is about: users keep their address and
roles, and a password once set is only replaced; accounts keep their user and their key. So what a
request has read about a user or an account stays true of the tables for as long as it runs,
whatever other requests do meanwhile. The stored hash of a refresh token does not last, and
`Answers.rtOf_eq` says which calls change it.
-/

namespace JudgeIt

open Async

/-- Every user is still there, with what never changes, and every account with its user. -/
structure AuthDatabase.Extends (db db' : AuthDatabase) : Prop where
  user : ∀ u ∈ db.users.rows, ∃ u' ∈ db'.users.rows, u'.id = u.id ∧ u'.email = u.email ∧
    u'.role = u.role ∧ (u.hash.isSome → u'.hash.isSome)
  account : ∀ a ∈ db.accounts.rows, ∃ a' ∈ db'.accounts.rows, a'.userId = a.userId ∧
    a'.providerKey = a.providerKey

namespace AuthDatabase

variable {db db' : AuthDatabase}

theorem Extends.refl (db : AuthDatabase) : db.Extends db where
  user := fun u hu ↦ ⟨u, hu, rfl, rfl, rfl, id⟩
  account := fun a ha ↦ ⟨a, ha, rfl, rfl⟩

theorem Extends.trans {db'' : AuthDatabase} (h : db.Extends db') (h' : db'.Extends db'') :
    db.Extends db'' where
  user := fun u hu ↦ by
    obtain ⟨u', hu', hid, hemail, hrole, hhash⟩ := h.user u hu
    obtain ⟨u'', hu'', hid', hemail', hrole', hhash'⟩ := h'.user u' hu'
    exact ⟨u'', hu'', hid'.trans hid, hemail'.trans hemail, hrole'.trans hrole,
      fun hu ↦ hhash' (hhash hu)⟩
  account := fun a ha ↦ by
    obtain ⟨a', ha', huser, hkey⟩ := h.account a ha
    obtain ⟨a'', ha'', huser', hkey'⟩ := h'.account a' ha'
    exact ⟨a'', ha'', huser'.trans huser, hkey'.trans hkey⟩

theorem Extends.of_append (users : List User) (accounts : List Account)
    (hu : db'.users.rows = db.users.rows ++ users)
    (ha : db'.accounts.rows = db.accounts.rows ++ accounts) : db.Extends db' where
  user := fun u h ↦ ⟨u, by rw [hu]; exact List.mem_append_left _ h, rfl, rfl, rfl, id⟩
  account := fun a h ↦ ⟨a, by rw [ha]; exact List.mem_append_left _ h, rfl, rfl⟩

theorem Extends.modifyUser {id : ℤ}
    {f : Option JsString × Option JsString → Option JsString × Option JsString}
    (hf : ∀ h, h.1.isSome → (f h).1.isSome) : db.Extends (db.modifyUser id f) where
  user := fun u hu ↦ by
    refine ⟨_, mem_modifyUser.mpr ⟨u, hu, rfl⟩, ?_⟩
    split
    · exact ⟨rfl, rfl, rfl, hf (u.hash, u.hashedRt)⟩
    · exact ⟨rfl, rfl, rfl, fun h ↦ h⟩
  account := fun a ha ↦ ⟨a, ha, rfl, rfl⟩

/-- **Nothing is lost.** -/
theorem Effect.extends {x : Event AuthCall.Res} (h : Effect db x db') : db.Extends db' := by
  cases h with
  | nothing => exact .refl db
  | createUser h =>
    obtain ⟨-, -, hrows, haccounts, -, -⟩ := of_createUser h
    exact .of_append _ [] hrows (by rw [haccounts, List.append_nil])
  | createOauthUser h =>
    obtain ⟨db₁, hcreate, haccount⟩ := of_createOauthUser h
    obtain ⟨-, -, hrows, haccounts, -, -⟩ := of_createUser hcreate
    obtain ⟨-, husers, -, hadded⟩ := of_createAccount haccount
    exact .of_append _ _ (by rw [husers, hrows]) (by rw [hadded, haccounts])
  | updateRtHash h =>
    rw [(updateRtHash_eq_some_iff.mp h).2]
    exact .modifyUser fun _ ↦ id
  | deleteRt => exact .modifyUser fun _ ↦ id
  | changePassword h =>
    rw [(changePassword_eq_some_iff.mp h).2]
    exact .modifyUser fun _ _ ↦ rfl
  | linkOauthUser h =>
    obtain ⟨-, husers, -, hadded⟩ := of_createAccount h
    exact .of_append [] _ (by rw [husers, List.append_nil]) hadded
  | updateOauthAccount h =>
    obtain ⟨husers, -, hrows⟩ := of_updateOauthAccount h
    refine ⟨fun u hu ↦ ⟨u, husers ▸ hu, rfl, rfl, rfl, id⟩, fun a ha ↦ ?_⟩
    refine ⟨_, hrows ▸ List.mem_map_of_mem ha, ?_⟩
    split <;> exact ⟨rfl, rfl⟩
  | createPasswordResetToken h =>
    obtain ⟨husers, haccounts, -⟩ := of_createPasswordResetToken h
    exact .of_append [] [] (by rw [husers, List.append_nil])
      (by rw [haccounts, List.append_nil])
  | markTokenUsed h =>
    obtain ⟨husers, haccounts, -⟩ := of_markTokenUsed h
    exact .of_append [] [] (by rw [husers, List.append_nil])
      (by rw [haccounts, List.append_nil])

/-! ## What is read about a user -/

/-- The user an answered call returns. -/
def returned : Event AuthCall.Res → Option User
  | ⟨.findByEmail _, .ok user⟩ | ⟨.findById _, .ok user⟩ => user
  | ⟨.createUser .., .ok user⟩ | ⟨.createOauthUser .., .ok user⟩ => some user
  | ⟨.findAccountByProvider .., .ok found⟩ => found.map Prod.snd
  | _ => none

/-- The user is there, and what never changes about him is as it says. -/
def Known (db : AuthDatabase) (user : User) : Prop :=
  ∃ u ∈ db.users.rows, u.id = user.id ∧ u.email = user.email ∧ u.role = user.role

theorem Known.extends {user : User} (h : Known db user) (hext : db.Extends db') :
    Known db' user := by
  obtain ⟨u, hu, hid, hemail, hrole⟩ := h
  obtain ⟨u', hu', hid', hemail', hrole', -⟩ := hext.user u hu
  exact ⟨u', hu', hid'.trans hid, hemail'.trans hemail, hrole'.trans hrole⟩

theorem mem_of_returned {op : AuthCall} {r : op.Res} {user : User} (hanswer : Answers db op r db')
    (h : returned ⟨op, r⟩ = some user) : user ∈ db'.users.rows := by
  cases op with
  | findByEmail email =>
    rcases r with e | found
    · cases h
    · obtain ⟨rfl, hfind⟩ := hanswer
      exact (findByEmail_eq_some_iff.mp (hfind.symm.trans h)).1
  | findById id =>
    rcases r with e | found
    · cases h
    · obtain ⟨rfl, hfind⟩ := hanswer
      exact (AutoTable.find?_eq_some_iff.mp (hfind.symm.trans h)).1
  | createUser email username hash =>
    rcases r with e | created
    · cases h
    · cases h
      rw [(of_createUser hanswer).2.2.1]
      exact List.mem_append_right _ (List.mem_singleton_self _)
  | createOauthUser email username provider id at' rt =>
    rcases r with e | created
    · cases h
    · cases h
      obtain ⟨db₁, hcreate, haccount⟩ := of_createOauthUser hanswer
      rw [(of_createAccount haccount).2.1, (of_createUser hcreate).2.2.1]
      exact List.mem_append_right _ (List.mem_singleton_self _)
  | findAccountByProvider provider id =>
    rcases r with e | found
    · cases h
    · obtain ⟨rfl, hfound⟩ := hanswer
      obtain ⟨⟨account, user'⟩, rfl, rfl⟩ := Option.map_eq_some_iff.mp h
      obtain ⟨a, -, hu⟩ := Option.bind_eq_some_iff.mp hfound.symm
      obtain ⟨u, hu, heq⟩ := Option.map_eq_some_iff.mp hu
      cases heq
      exact (AutoTable.find?_eq_some_iff.mp hu).1
  | _ => rcases r with e | r <;> cases h

/-! ## The stored hash of a refresh token -/

/-- What an answered call makes of the stored hash of a user. -/
def rtAfter (userId : ℤ) (rt : Option JsString) : Event AuthCall.Res → Option JsString
  | ⟨.updateRtHash id new, .ok _⟩ => if userId = id then some new else rt
  | ⟨.deleteRt id, .ok _⟩ => if userId = id then none else rt
  | _ => rt

variable {op : AuthCall} {r : op.Res} {userId : ℤ}

theorem rtOf_modifyUser {id : ℤ}
    {f : Option JsString × Option JsString → Option JsString × Option JsString} :
    (db.modifyUser id f).rtOf userId = if userId = id then
      (db.users.find? userId).bind fun u ↦ (f (u.hash, u.hashedRt)).2 else db.rtOf userId := by
  rw [rtOf, find?_modifyUser]
  split
  · rw [Option.bind_map]
    rfl
  · rfl

theorem rtOf_createUser {email username : JsString} {hash : Option JsString} {user : User}
    (h : db.createUser email username hash = some (user, db')) :
    db'.rtOf userId = db.rtOf userId := by
  obtain ⟨rfl, -, -, -, -, hfind⟩ := of_createUser h
  rw [rtOf, hfind, rtOf]
  split
  · next heq => rw [heq, newUser_id, AutoTable.find?_next]; rfl
  · rfl

/-- The other calls leave the hash of the refresh token alone. -/
theorem Effect.rtOf_eq {x : Event AuthCall.Res} (h : Effect db x db')
    (hupdate : ∀ id rt, x.1 ≠ .updateRtHash id rt) (hdelete : ∀ id, x.1 ≠ .deleteRt id) :
    db'.rtOf userId = db.rtOf userId := by
  cases h with
  | nothing => rfl
  | createUser h => exact rtOf_createUser h
  | createOauthUser h =>
    obtain ⟨db₁, hcreate, haccount⟩ := of_createOauthUser h
    obtain ⟨-, husers, -, -⟩ := of_createAccount haccount
    rw [rtOf, husers]
    exact rtOf_createUser hcreate
  | updateRtHash _ => exact absurd rfl (hupdate _ _)
  | deleteRt => exact absurd rfl (hdelete _)
  | changePassword h =>
    rw [(changePassword_eq_some_iff.mp h).2, rtOf_modifyUser]
    split <;> rfl
  | linkOauthUser h =>
    obtain ⟨-, husers, -, -⟩ := of_createAccount h
    rw [rtOf, husers, rtOf]
  | updateOauthAccount h =>
    obtain ⟨husers, -, -⟩ := of_updateOauthAccount h
    rw [rtOf, husers, rtOf]
  | createPasswordResetToken h =>
    obtain ⟨husers, -, -⟩ := of_createPasswordResetToken h
    rw [rtOf, husers, rtOf]
  | markTokenUsed h =>
    obtain ⟨husers, -, -⟩ := of_markTokenUsed h
    rw [rtOf, husers, rtOf]

/-- **Which calls change the stored hash**, and to what. -/
theorem Answers.rtOf_eq (h : Answers db op r db') :
    db'.rtOf userId = rtAfter userId (db.rtOf userId) ⟨op, r⟩ := by
  cases op with
  | updateRtHash id rt =>
    rcases r with e | _
    · rw [show db' = db from h]
      rfl
    · obtain ⟨hsome, rfl⟩ := updateRtHash_eq_some_iff.mp h
      rw [rtOf_modifyUser, rtAfter]
      split
      · next heq =>
        obtain ⟨u, hu⟩ := Option.isSome_iff_exists.mp hsome
        rw [heq, hu]
        rfl
      · rfl
  | deleteRt id =>
    rcases r with e | _
    · rw [show db' = db from h]
      rfl
    · rw [show db' = db.deleteRt id from h, deleteRt, rtOf_modifyUser, rtAfter]
      split
      · cases db.users.find? userId <;> rfl
      · rfl
  | _ => exact h.effect.rtOf_eq (by simp) (by simp)

end AuthDatabase

end JudgeIt
