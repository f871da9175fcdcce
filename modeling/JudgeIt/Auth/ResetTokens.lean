import JudgeIt.Auth.Controller
import JudgeIt.Auth.Database

/-!
# Reset tokens

What a reset does, call by call, and what becomes of the row it has looked up. The row is read first
and marked last; between the two the password is hashed and written. Only two calls touch the table:
creating a token adds a row, and marking one used replaces a row by itself with the flag set, so a
lookup finds the same row as before, at most with the flag set.
-/

namespace JudgeIt

open Async AuthDatabase

/-- The way of a reset through its calls. -/
inductive Reset (M : AuthModule) (dto : ResetPasswordDto) :
    List (Event AuthCall.Res) → Except Exception JsString → Prop
  /-- The row cannot be looked up. -/
  | unread (e : Exception) :
      Reset M dto [⟨.getPasswordResetToken (M.sha256 dto.token), .error e⟩] (.error e)
  /-- There is none. -/
  | unknown : Reset M dto [⟨.getPasswordResetToken (M.sha256 dto.token), .ok none⟩]
      (.error (.ForbiddenException "Invalid or expired token"))
  /-- It is marked. -/
  | used {row : PasswordResetToken} : row.used = true →
      Reset M dto [⟨.getPasswordResetToken (M.sha256 dto.token), .ok (some row)⟩]
        (.error (.ForbiddenException "Token has already been used"))
  /-- It is too old, or the new password is too short. -/
  | refused {row : PasswordResetToken} {date : ℤ} (e : Exception) : row.used = false →
      row.expiresAt < date ∨ dto.newPassword.length < 8 →
      Reset M dto [⟨.getPasswordResetToken (M.sha256 dto.token), .ok (some row)⟩, ⟨.now, date⟩]
        (.error e)
  /-- The new password cannot be hashed. -/
  | unhashed {row : PasswordResetToken} {date : ℤ} (e : Exception) : row.used = false →
      Reset M dto [⟨.getPasswordResetToken (M.sha256 dto.token), .ok (some row)⟩, ⟨.now, date⟩,
        ⟨.hash dto.newPassword, .error e⟩] (.error e)
  /-- It cannot be written. -/
  | unwritten {row : PasswordResetToken} {date : ℤ} (salt : JsString) (e : Exception) :
      row.used = false →
      Reset M dto [⟨.getPasswordResetToken (M.sha256 dto.token), .ok (some row)⟩, ⟨.now, date⟩,
        ⟨.hash dto.newPassword, .ok salt⟩,
        ⟨.changePassword row.userId (M.argon2.hash salt dto.newPassword), .error e⟩] (.error e)
  /-- It is written. -/
  | written {row : PasswordResetToken} {date : ℤ} (salt : JsString) (r : Except Exception Unit) :
      row.used = false → ¬row.expiresAt < date →
      Reset M dto [⟨.getPasswordResetToken (M.sha256 dto.token), .ok (some row)⟩, ⟨.now, date⟩,
        ⟨.hash dto.newPassword, .ok salt⟩,
        ⟨.changePassword row.userId (M.argon2.hash salt dto.newPassword), .ok ()⟩,
        ⟨.markTokenUsed row.id, r⟩] (r.map fun _ ↦ .ofString "Password reset successfully")

variable {M : AuthModule} {dto : ResetPasswordDto} {tr rest : List (Event AuthCall.Res)}
  {out : Except Exception JsString} {db db' : AuthDatabase} {id : ℤ} {hashed : JsString}

theorem eval_reset_tail {row : PasswordResetToken} {date : ℤ} (hused : row.used = false)
    (hdate : ¬row.expiresAt < date)
    (h : ((hash M dto.newPassword).bind fun hashedPassword ↦
      (UsersRepository.changePassword row.userId hashedPassword).bind fun _ ↦
        (PasswordResetRepository.markTokenUsed row.id).bind fun _ ↦
          .pure (.ofString "Password reset successfully")).Eval tr out) :
    Reset M dto
      (⟨.getPasswordResetToken (M.sha256 dto.token), .ok (some row)⟩ :: ⟨.now, date⟩ :: tr)
      out := by
  rcases Program.eval_bind_iff.mp h with ⟨e, he, rfl⟩ | ⟨h', tr₁, tr₂, rfl, hh, hrest⟩
  · obtain ⟨r, rfl, hr⟩ := eval_hash_iff.mp he
    rcases r with e' | salt <;> cases hr
    exact .unhashed _ hused
  obtain ⟨r, rfl, hr⟩ := eval_hash_iff.mp hh
  rcases r with e' | salt
  · cases hr
  cases hr
  obtain ⟨r, tr, rfl, hrest⟩ := hrest
  rcases r with e | _
  · obtain ⟨rfl, rfl⟩ := hrest
    exact .unwritten salt e hused
  obtain ⟨r, tr, rfl, hrest⟩ := hrest
  rcases r with e | _
  · obtain ⟨rfl, rfl⟩ := hrest
    exact .written salt (.error e) hused hdate
  · obtain ⟨rfl, rfl⟩ := hrest
    exact .written salt (.ok ()) hused hdate

theorem eval_resetPassword (h : (AuthService.resetPassword M dto).Eval tr out) :
    Reset M dto tr out := by
  obtain ⟨r, tr, rfl, h⟩ := h
  rcases r with e | _ | row
  · obtain ⟨rfl, rfl⟩ := h
    exact .unread e
  · obtain ⟨rfl, rfl⟩ := h
    exact .unknown
  rcases Program.eval_bind_iff.mp h with ⟨e, he, rfl⟩ | ⟨ids, tr₁, tr₂, rfl, hvalid, hrest⟩
  · clear h
    rcases Program.eval_ite he with ⟨hused, rfl, hout⟩ | ⟨hused, date, tr', rfl, hdate⟩
    · cases hout
      exact .used hused
    rcases Program.eval_ite hdate with ⟨hexpired, rfl, -⟩ | ⟨-, -, hout⟩
    · exact .refused e (by simpa using hused) (Or.inl hexpired)
    · cases hout
  clear h
  rcases Program.eval_ite hvalid with ⟨-, -, hout⟩ | ⟨hused, date, tr', rfl, hdate⟩
  · cases hout
  rcases Program.eval_ite hdate with ⟨-, -, hout⟩ | ⟨hexpired, rfl, hids⟩
  · cases hout
  cases hids
  rcases Program.eval_ite hrest with ⟨hshort, rfl, rfl⟩ | ⟨-, hwrite⟩
  · exact .refused _ (by simpa using hused) (Or.inr hshort)
  · exact eval_reset_tail (by simpa using hused) hexpired hwrite

/-! ## The order of the calls -/

/-- What has come before a password is written. -/
theorem Reset.before_write {userId : ℤ} {r : Except Exception Unit}
    (h : Reset M dto (tr ++ ⟨.changePassword userId hashed, r⟩ :: rest) out) : ∃ row date salt,
      tr = [⟨.getPasswordResetToken (M.sha256 dto.token), .ok (some row)⟩, ⟨.now, date⟩,
        ⟨.hash dto.newPassword, .ok salt⟩] ∧ row.used = false := by
  generalize hl : tr ++ _ :: rest = l at h
  cases h <;> simp [List.append_eq_cons_iff, List.cons_eq_append_iff] at hl
  case unwritten row date salt e hused => exact ⟨row, date, salt, hl.1, hused⟩
  case written row date salt r' hused hdate => exact ⟨row, date, salt, hl.1, hused⟩

/-- What has come before a token is marked. -/
theorem Reset.before_mark {r : Except Exception Unit}
    (h : Reset M dto (tr ++ ⟨.markTokenUsed id, r⟩ :: rest) out) : ∃ row date salt userId hashed,
      tr = [⟨.getPasswordResetToken (M.sha256 dto.token), .ok (some row)⟩, ⟨.now, date⟩,
        ⟨.hash dto.newPassword, .ok salt⟩, ⟨.changePassword userId hashed, .ok ()⟩] ∧
      row.id = id := by
  generalize hl : tr ++ _ :: rest = l at h
  cases h <;> simp [List.append_eq_cons_iff, List.cons_eq_append_iff] at hl
  case written row date salt r' hused hdate =>
    exact ⟨row, date, salt, _, _, hl.1, hl.2.1.1.symm⟩

theorem Reset.marks_of_write {userId : ℤ} (h : Reset M dto tr out)
    (hwrite : ⟨.changePassword userId hashed, .ok ()⟩ ∈ tr) :
    ∃ id r, ⟨.markTokenUsed id, r⟩ ∈ tr := by
  cases h <;> simp at hwrite
  case written row date salt r hused hdate => exact ⟨row.id, r, by simp⟩

theorem Reset.not_create (h : Reset M dto tr out) {e : Event AuthCall.Res} (he : e ∈ tr)
    (userId : ℤ) (token : JsString) (expiresAt : ℤ) :
    e.1 ≠ .createPasswordResetToken userId token expiresAt := by
  rintro heq
  cases h <;> simp at he <;> rcases he with rfl | rfl | rfl | rfl | rfl <;> cases heq

/-! ## The row of a token -/

namespace AuthDatabase

theorem newest_map {f : PasswordResetToken → PasswordResetToken}
    (hf : ∀ t, (f t).createdAt = t.createdAt) (l : List PasswordResetToken) :
    newest (l.map f) = (newest l).map f := by
  induction l with
  | nil => rfl
  | cons t l ih =>
    rw [List.map_cons, newest, ih, newest]
    cases newest l with
    | none => rfl
    | some t' =>
      simp only [Option.map_some, hf]
      split <;> rfl

theorem mem_of_newest {l : List PasswordResetToken} {t : PasswordResetToken}
    (h : newest l = some t) : t ∈ l := by
  induction l generalizing t with
  | nil => cases h
  | cons t' l ih =>
    rw [newest] at h
    cases hl : newest l with
    | none =>
      rw [hl] at h
      cases h
      exact List.mem_cons_self
    | some t'' =>
      rw [hl] at h
      simp only at h
      split at h <;> cases h
      · exact List.mem_cons_of_mem _ (ih hl)
      · exact List.mem_cons_self

theorem of_getPasswordResetToken {row : PasswordResetToken}
    (h : db.getPasswordResetToken hashed = some row) :
    row ∈ db.resetTokens.rows ∧ row.tokenHash = hashed := by
  simpa using mem_of_newest h

/-- A lookup finds the row it found before, marked if that is the row that has been marked. -/
theorem getPasswordResetToken_of_markTokenUsed (h : db.markTokenUsed id = some db') :
    db'.getPasswordResetToken hashed = (db.getPasswordResetToken hashed).map
      fun t ↦ if t.id = id then t.markUsed else t := by
  obtain ⟨-, -, hrows⟩ := of_markTokenUsed h
  rw [getPasswordResetToken, hrows, List.filter_map, newest_map]
  · congr 2
    refine List.filter_congr fun t _ ↦ ?_
    rw [Function.comp_apply]
    split <;> rfl
  · intro t
    split <;> rfl

theorem Effect.resetTokens_eq {x : Event AuthCall.Res} (h : Effect db x db')
    (hcreate : ∀ userId token expiresAt, x.1 ≠ .createPasswordResetToken userId token expiresAt)
    (hmark : ∀ id, x ≠ ⟨.markTokenUsed id, .ok ()⟩) : db'.resetTokens = db.resetTokens := by
  cases h with
  | nothing => rfl
  | createUser h => exact (of_createUser h).2.2.2.2.1
  | createOauthUser h =>
    obtain ⟨db₁, hcreate, haccount⟩ := of_createOauthUser h
    rw [(of_createAccount haccount).2.2.1]
    exact (of_createUser hcreate).2.2.2.2.1
  | updateRtHash h =>
    rw [(updateRtHash_eq_some_iff.mp h).2]
    rfl
  | deleteRt => rfl
  | changePassword h =>
    rw [(changePassword_eq_some_iff.mp h).2]
    rfl
  | linkOauthUser h => exact (of_createAccount h).2.2.1
  | updateOauthAccount h => exact (of_updateOauthAccount h).2.1
  | createPasswordResetToken _ => exact absurd rfl (hcreate _ _ _)
  | markTokenUsed _ => exact absurd rfl (hmark _)

end AuthDatabase

/-- A token is marked used. -/
def IsMark (x : Event AuthCall.Res) : Prop := ∃ id, x = ⟨.markTokenUsed id, .ok ()⟩

/-- What becomes of the rows in a call that creates none: one of them is marked, or they stay. -/
theorem lookup_answered {op : AuthCall} {r : op.Res} (hanswer : Answers db op r db')
    (hcreate : ∀ userId token expiresAt, op ≠ .createPasswordResetToken userId token expiresAt) :
    (∃ id, (⟨op, r⟩ : Event AuthCall.Res) = ⟨.markTokenUsed id, .ok ()⟩ ∧
      ∀ hashed, db'.getPasswordResetToken hashed = (db.getPasswordResetToken hashed).map
        fun t ↦ if t.id = id then t.markUsed else t) ∨
    (¬IsMark ⟨op, r⟩ ∧ db'.resetTokens = db.resetTokens) := by
  by_cases hmark : IsMark ⟨op, r⟩
  · obtain ⟨id, hid⟩ := hmark
    cases hid
    exact Or.inl ⟨id, rfl, fun hashed ↦ getPasswordResetToken_of_markTokenUsed hanswer⟩
  · exact Or.inr ⟨hmark, hanswer.effect.resetTokens_eq hcreate fun id hid ↦ hmark ⟨id, hid⟩⟩

end JudgeIt
