import JudgeIt.Async.Pool
import JudgeIt.Auth.Controller
import JudgeIt.Auth.Database

/-!
# A world without accidents

A deterministic world around the service: every call is answered, by the tables where it concerns
them and refused only where the schema refuses it, the clock stands still while a request is served,
and mail goes out or not. It is one of the behaviours `AuthDatabase.Answers` allows, so what a
request does in it, the request can do; and two requests can be compared in worlds that differ in
nothing but a row.
-/

namespace JudgeIt

open Async

/-- The runs of the authentication service. -/
abbrev AuthRun (M : AuthModule) := Pool.Runs (AuthRequest.serve M) AuthDatabase.Answers

/-- What answers the calls. -/
structure World where
  db : AuthDatabase
  /-- `Date.now()`. -/
  time : ℤ
  /-- What `argon2.hash` draws. -/
  salt : JsString
  randomBytes : JsString
  /-- `getId(4)`. -/
  id : JsString
  /-- The mail transport. -/
  sendMail (mail : MailDto) : Except Exception Unit

namespace World

/-- The error of a write that the schema refuses. -/
def refusal : Exception := .Error "PrismaClientKnownRequestError"

/-- The response to a write, and the world after it. -/
def write {α : Type} (w : World) : Option (α × AuthDatabase) → Except Exception α × World
  | some (a, db) => (.ok a, { w with db := db })
  | none => (.error refusal, w)

/-- The response to a call. -/
def respond (op : AuthCall) (w : World) : op.Res × World :=
  match op with
  | .hash _ => (.ok w.salt, w)
  | .verify _ _ => (.ok (), w)
  | .signAsync _ _ => (.ok (w.time / 1000), w)
  | .now => (w.time, w)
  | .randomBytes => (w.randomBytes, w)
  | .getId => (w.id, w)
  | .sendMail mail => (w.sendMail mail, w)
  | .findByEmail email => (.ok (w.db.findByEmail email), w)
  | .findById id => (.ok (w.db.findById id), w)
  | .createUser email username hash => w.write (w.db.createUser email username (some hash))
  | .updateRtHash id rt => w.write ((w.db.updateRtHash id rt).map ((), ·))
  | .deleteRt id => w.write (some ((), w.db.deleteRt id))
  | .findAccountByProvider provider id => (.ok (w.db.findAccountByProvider provider id), w)
  | .updateOauthAccount id at' rt => w.write ((w.db.updateOauthAccount id at' rt).map ((), ·))
  | .linkOauthUser userId provider id at' rt =>
    w.write ((w.db.createAccount userId provider id at' rt).map ((), ·))
  | .createOauthUser email username provider id at' rt =>
    w.write (w.db.createOauthUser email username provider id at' rt)
  | .findWithAccounts email => (.ok (w.db.findWithAccounts email), w)
  | .changePassword id hash => w.write ((w.db.changePassword id hash).map ((), ·))
  | .createPasswordResetToken userId token expiresAt =>
    w.write ((w.db.createPasswordResetToken userId token expiresAt w.time).map ((), ·))
  | .getPasswordResetToken token => (.ok (w.db.getPasswordResetToken token), w)
  | .markTokenUsed id => w.write ((w.db.markTokenUsed id).map ((), ·))

/-- What a request does in the world: its calls, its outcome, and the world after it. -/
def serve (M : AuthModule) (request : AuthRequest) (w : World) :
    List (Event AuthCall.Res) × Except Exception Reply × World :=
  (request.serve M).run respond w

/-! ## The tables allow it -/

theorem write_spec {α : Type} (w : World) {x : Option (α × AuthDatabase)}
    {P : Except Exception α → AuthDatabase → Prop}
    (hok : ∀ a db, x = some (a, db) → P (.ok a) db) (herror : P (.error refusal) w.db) :
    P (w.write x).1 (w.write x).2.db := by
  rcases x with _ | ⟨a, db⟩
  · exact herror
  · exact hok a db rfl

theorem write_map_spec (w : World) {x : Option AuthDatabase}
    {P : Except Exception Unit → AuthDatabase → Prop}
    (hok : ∀ db, x = some db → P (.ok ()) db) (herror : P (.error refusal) w.db) :
    P (w.write (x.map ((), ·))).1 (w.write (x.map ((), ·))).2.db := by
  refine w.write_spec (fun _ db h ↦ ?_) herror
  obtain ⟨db', hx, heq⟩ := Option.map_eq_some_iff.mp h
  obtain ⟨-, rfl⟩ := Prod.mk.inj heq
  exact hok db' hx

theorem answers_respond (op : AuthCall) (w : World) :
    w.db.Answers op (respond op w).1 (respond op w).2.db := by
  cases op with
  | hash _ | verify _ _ | signAsync _ _ | now | randomBytes | getId | sendMail _ | deleteRt _ =>
    rfl
  | findByEmail _ | findById _ | findAccountByProvider _ _ | findWithAccounts _
  | getPasswordResetToken _ => exact ⟨rfl, rfl⟩
  | createUser email username hash =>
    exact w.write_spec (P := w.db.Answers (.createUser email username hash)) (fun _ _ h ↦ h) rfl
  | createOauthUser email username provider id at' rt =>
    exact w.write_spec (P := w.db.Answers (.createOauthUser email username provider id at' rt))
      (fun _ _ h ↦ h) rfl
  | updateRtHash id rt =>
    exact w.write_map_spec (P := w.db.Answers (.updateRtHash id rt)) (fun _ h ↦ h) rfl
  | updateOauthAccount id at' rt =>
    exact w.write_map_spec (P := w.db.Answers (.updateOauthAccount id at' rt)) (fun _ h ↦ h) rfl
  | linkOauthUser userId provider id at' rt =>
    exact w.write_map_spec (P := w.db.Answers (.linkOauthUser userId provider id at' rt))
      (fun _ h ↦ h) rfl
  | changePassword id hash =>
    exact w.write_map_spec (P := w.db.Answers (.changePassword id hash)) (fun _ h ↦ h) rfl
  | createPasswordResetToken userId token expiresAt =>
    exact w.write_map_spec (P := w.db.Answers (.createPasswordResetToken userId token expiresAt))
      (fun _ h ↦ ⟨w.time, h⟩) rfl
  | markTokenUsed id =>
    exact w.write_map_spec (P := w.db.Answers (.markTokenUsed id)) (fun _ h ↦ h) rfl

variable {M : AuthModule} {request : AuthRequest} {w : World}

theorem eval_serve : (request.serve M).Eval (w.serve M request).1 (w.serve M request).2.1 :=
  Program.eval_run respond _ _

theorem steps_serve : AuthDatabase.Answers.Steps w.db (w.serve M request).1
    (w.serve M request).2.2.db :=
  Env.steps_run (g := World.db) answers_respond _ _

theorem exists_run {s₀ : AuthDatabase}
    {p : Pool AuthRequest AuthCall.Res Exception Reply AuthDatabase}
    {l : List (Pool AuthRequest AuthCall.Res Exception Reply AuthDatabase ×
      Pool.Action AuthRequest AuthCall.Res)} (hrun : AuthRun M s₀ l p) (w : World)
    (hw : w.db = p.shared) (request : AuthRequest) : ∃ l', AuthRun M s₀ (l ++ l')
      ⟨p.processes ++ [⟨request, (w.serve M request).1, .ofExcept (w.serve M request).2.1⟩],
        (w.serve M request).2.2.db⟩ :=
  Pool.exists_run_serve hrun eval_serve (hw ▸ steps_serve)

end World

end JudgeIt
