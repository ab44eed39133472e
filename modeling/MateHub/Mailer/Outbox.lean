import MateHub.Lib.Table
import Mathlib.Data.Int.Notation
import Mathlib.Data.List.Perm.Basic

/-!
# The mail outbox

Mails are enqueued in a table, in the transactions that give rise to them, and a worker
claims some of them at a time, renders them and hands them to a transport. A row that is
claimed is `sending` until it is marked as sent, or as failed: then it is pending again for
some time, which grows with its attempts, or failed for good.
-/

namespace MateHub

namespace Mailer

/-- Seconds. -/
abbrev Time := ℕ

/-- The status of a row. -/
inductive Status
  | pending
  | sending
  | sent
  | failed
  deriving DecidableEq

/-- A JSON value, as far as the templates look into it: a value in it is a string or
something else. -/
inductive Payload
  | array (values : List (Option String))
  | object (fields : List (String × Option String))
  | other
  deriving DecidableEq

/-- A row of `mail_outbox`. -/
structure MailOutbox where
  id : ℤ
  template : String
  toEmail : String
  payload : Payload
  status : Status
  attempts : ℕ
  lastError : Option String
  messageId : Option String
  scheduledAt : Time
  sentAt : Option Time
  deriving DecidableEq

/-- What the worker knows of a row that it has claimed. -/
structure OutboxRow where
  id : ℤ
  template : String
  toEmail : String
  payload : Payload
  attempts : ℕ
  deriving DecidableEq

/-! ### Templates -/

/-- A mail, rendered. -/
structure Mail where
  «to» : String
  «from» : String
  subject : String
  html : String
  text : String
  deriving DecidableEq

/-- A template file filled in with some values, or an error. -/
abbrev Askama := String → List String → Except String String

/-- The strings of a payload with given fields, from an object or from a sequence. -/
def Payload.strings (names : List String) : Payload → Option (List String)
  | .object fields =>
    names.mapM fun name => (fields.find? fun f => decide (f.1 = name)).bind Prod.snd
  | .array values => if values.length = names.length then values.mapM id else none
  | .other => none

/-- A pair of templates, with the subject of its mail. -/
structure Template where
  name : String
  fields : List String
  subject : List String → String

/-- The logical templates, by their names. -/
def template? : String → Option Template
  | "account_verify" =>
    some ⟨"account_verify", ["verify_url"], fun _ => "Confirm your MateHub email"⟩
  | "account_welcome" =>
    some ⟨"account_welcome", ["dashboard_url"], fun _ => "Welcome to MateHub"⟩
  | "hub_invite" =>
    some ⟨"hub_invite", ["hub_name", "inviter_name", "invite_url"], fun values =>
      "You're invited to " ++ values.headD "" ++ " on MateHub"⟩
  | _ => none

/-- `render`: the subject and the bodies of a row's template. -/
def render (askama : Askama) (template toEmail : String) (payload : Payload) (mailFrom : String) :
    Except String Mail :=
  match template? template with
  | none => .error ("unknown mail template: " ++ template)
  | some t =>
    match payload.strings t.fields with
    | none => .error ("invalid payload for " ++ t.name)
    | some values => do
      let html ← askama (t.name ++ ".html") values
      let text ← askama (t.name ++ ".txt") values
      return ⟨toEmail, mailFrom, t.subject values, html, text⟩

/-! ### Statements -/

/-- `enqueue_tx`. -/
def enqueue (now : Time) (id : ℤ) (template toEmail : String) (payload : Payload)
    (rows : List MailOutbox) : Option (List MailOutbox) :=
  Table.insert MailOutbox.id
    ⟨id, template, toEmail, payload, .pending, 0, none, none, now, none⟩ rows

/-- A row may be claimed. -/
def MailOutbox.isDue (now : Time) (r : MailOutbox) : Bool :=
  decide (r.status = .pending) && decide (r.scheduledAt ≤ now)

/-- The rows that `claim_batch` takes: the first ones in the order of their schedule, in any
order where that is the same, of those that are due and that nobody has locked. -/
def Claimable (now : Time) (limit : ℕ) (locked : List ℤ) (rows : List MailOutbox)
    (ids : List ℤ) : Prop :=
  ∃ order : List MailOutbox,
    order.Perm (rows.filter fun r => r.isDue now && !locked.contains r.id) ∧
    order.Pairwise (fun r r' => r.scheduledAt ≤ r'.scheduledAt) ∧
    ids.Perm ((order.take limit).map MailOutbox.id)

/-- `claim_batch`: the `UPDATE` of the claimed rows. -/
def claimBatch (ids : List ℤ) (rows : List MailOutbox) : List MailOutbox :=
  Table.update (fun r => ids.contains r.id)
    (fun r => { r with status := .sending, attempts := r.attempts + 1 }) rows

/-- The columns of a row that a claim returns. -/
def MailOutbox.toRow (r : MailOutbox) : OutboxRow :=
  ⟨r.id, r.template, r.toEmail, r.payload, r.attempts⟩

/-- What the `UPDATE` returns. -/
def returning (ids : List ℤ) (rows : List MailOutbox) : List OutboxRow :=
  ids.filterMap fun id => (rows.find? fun r => decide (r.id = id)).map MailOutbox.toRow

/-- `mark_sent` -/
def markSent (now : Time) (id : ℤ) (messageId : String) (rows : List MailOutbox) :
    List MailOutbox :=
  Table.update (fun r => decide (r.id = id))
    (fun r => { r with status := .sent, sentAt := some now, messageId := some messageId }) rows

/-- The retry schedule. -/
def backoffSecs : ℕ → Option ℕ
  | 1 => some 30
  | 2 => some 120
  | 3 => some 600
  | 4 => some 3600
  | 5 => some (6 * 3600)
  | _ => none

/-- `mark_failed`: the row is tried again later, or given up. -/
def markFailed (now : Time) (id : ℤ) (err : String) (attempts : ℕ) (rows : List MailOutbox) :
    List MailOutbox :=
  match backoffSecs attempts with
  | none =>
    Table.update (fun r => decide (r.id = id))
      (fun r => { r with status := .failed, lastError := some err }) rows
  | some secs =>
    Table.update (fun r => decide (r.id = id))
      (fun r => { r with
        status := .pending, lastError := some err, scheduledAt := now + secs }) rows

/-- A row is tried again after the first five attempts. -/
theorem backoffSecs_eq_none {n : ℕ} (h : backoffSecs n = none) (hn : 1 ≤ n) : 6 ≤ n := by
  by_contra hlt
  obtain rfl | rfl | rfl | rfl | rfl : n = 1 ∨ n = 2 ∨ n = 3 ∨ n = 4 ∨ n = 5 := by omega
  all_goals cases h

theorem le_of_backoffSecs {n secs : ℕ} (h : backoffSecs n = some secs) : n ≤ 5 := by
  by_contra hlt
  obtain ⟨m, rfl⟩ : ∃ m, n = m + 6 := ⟨n - 6, by omega⟩
  cases h

end Mailer

end MateHub
