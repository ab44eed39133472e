import MateHub.Lib.Runs
import MateHub.Mailer.Outbox

/-!
# The mail worker

The worker claims a batch, and then renders, sends and marks its rows one after another. A
database error ends the tick: the rows of the batch that have not been marked stay `sending`,
and no later `claim_batch` takes them up again (`MateHub.Mailer.stranded`).

In every run, a row that is marked as sent is never handed to the transport again, and no row
has more than six attempts. In the runs in which a mark fails only as far as its reply is
concerned and only for the last row of a batch (`MateHub.Mailer.Worker.Acknowledged`), every
row that has been claimed is sent, failed for good, or pending again whenever the worker is
between two ticks (`MateHub.Mailer.outbox_of_reach`).
-/

namespace MateHub

namespace Mailer

/-- How a row is to be marked. -/
inductive Mark
  | sent (messageId : String)
  | failed (err : String) (attempts : ℕ)
  deriving DecidableEq

/-- The `UPDATE` of a mark. -/
def Mark.apply (now : Time) (id : ℤ) : Mark → List MailOutbox → List MailOutbox
  | .sent messageId => markSent now id messageId
  | .failed err attempts => markFailed now id err attempts

/-- Where the worker stands. -/
inductive Phase
  /-- Between two ticks. -/
  | idle
  /-- The first row is to be rendered and sent. -/
  | processing (row : OutboxRow) (rest : List OutboxRow)
  /-- The row is to be marked. -/
  | marking (row : OutboxRow) (mark : Mark) (rest : List OutboxRow)
  deriving DecidableEq

/-- The loop over a batch. -/
def Phase.loop : List OutboxRow → Phase
  | [] => .idle
  | row :: rest => .processing row rest

/-- The rows that the worker has claimed in the tick, and not marked. -/
def Phase.batch : Phase → List OutboxRow
  | .idle => []
  | .processing row rest => row :: rest
  | .marking row _ rest => row :: rest

/-- The worker and the table. -/
structure Worker where
  now : Time
  rows : List MailOutbox
  phase : Phase
  /-- The rows ever claimed. -/
  claimed : List ℤ
  /-- The rows handed to the transport, the last one first. -/
  handed : List ℤ

/-- `BATCH_SIZE`. -/
def batchSize : ℕ := 32

/-- How `process_row` marks a row, from what the transport answers. -/
def markOf (row : OutboxRow) : Except String String → Mark
  | .ok messageId => .sent messageId
  | .error err => .failed err row.attempts

namespace Worker

/-- What happens to the outbox: services enqueue, time passes, the worker takes its steps. -/
inductive Act
  | enqueue (id : ℤ) (template toEmail : String) (payload : Payload)
  | wait (d : ℕ)
  | claim (ids : List ℤ)
  /-- `claim_batch` fails; the rows have been claimed all the same, if the connection is lost
  only then. -/
  | claimFails (ids : List ℤ)
  /-- A row is rendered, and sent if that goes through. -/
  | process (answer : Except String String)
  | mark
  /-- `mark_sent` or `mark_failed` fails, executed or not. -/
  | markFails (executed : Bool)

variable (askama : Askama) (mailFrom : String)

/-- A step of the worker, or of somebody who enqueues a mail. -/
inductive Step : Worker → Act → Worker → Prop
  | enqueue {w : Worker} {id : ℤ} {template toEmail : String} {payload : Payload}
      {rows : List MailOutbox} :
      Mailer.enqueue w.now id template toEmail payload w.rows = some rows →
      Step w (.enqueue id template toEmail payload) { w with rows }
  | wait {w : Worker} {d : ℕ} : Step w (.wait d) { w with now := w.now + d }
  | claim {w : Worker} {locked ids : List ℤ} : w.phase = .idle →
      Claimable w.now batchSize locked w.rows ids →
      Step w (.claim ids) { w with
        rows := claimBatch ids w.rows
        phase := .loop (returning ids (claimBatch ids w.rows))
        claimed := ids ++ w.claimed }
  | claimFails {w : Worker} : w.phase = .idle → Step w (.claimFails []) w
  | claimLost {w : Worker} {locked ids : List ℤ} : w.phase = .idle →
      Claimable w.now batchSize locked w.rows ids →
      Step w (.claimFails ids) { w with
        rows := claimBatch ids w.rows
        claimed := ids ++ w.claimed }
  | renderFails {w : Worker} {row : OutboxRow} {rest : List OutboxRow} {err : String}
      {answer : Except String String} : w.phase = .processing row rest →
      render askama row.template row.toEmail row.payload mailFrom = .error err →
      Step w (.process answer) { w with phase := .marking row (.failed err 99) rest }
  | send {w : Worker} {row : OutboxRow} {rest : List OutboxRow} {mail : Mail}
      {answer : Except String String} : w.phase = .processing row rest →
      render askama row.template row.toEmail row.payload mailFrom = .ok mail →
      Step w (.process answer) { w with
        phase := .marking row (markOf row answer) rest
        handed := row.id :: w.handed }
  | mark {w : Worker} {row : OutboxRow} {mark : Mark} {rest : List OutboxRow} :
      w.phase = .marking row mark rest →
      Step w .mark { w with rows := mark.apply w.now row.id w.rows, phase := .loop rest }
  | markFails {w : Worker} {row : OutboxRow} {mark : Mark} {rest : List OutboxRow}
      {executed : Bool} : w.phase = .marking row mark rest →
      Step w (.markFails executed) { w with
        rows := if executed then mark.apply w.now row.id w.rows else w.rows
        phase := .idle }

/-- The worker starts with an empty table. -/
def system : System Worker Act where
  init := fun w => ∃ now, w = ⟨now, [], .idle, [], []⟩
  step := Step askama mailFrom

/-- **The condition on a step**: a `claim_batch` that fails has claimed nothing; a mark that
fails has been executed, and its row is the last one of the batch. -/
def Acknowledged (w : Worker) : Act → Prop
  | .claimFails ids => ids = []
  | .markFails executed =>
    executed = true ∧ ∀ row mark rest, w.phase = .marking row mark rest → rest = []
  | _ => True

end Worker

/-! ### What is to hold -/

/-- The templates do not render a row. -/
def MailOutbox.Unrenderable (askama : Askama) (mailFrom : String) (r : MailOutbox) : Prop :=
  ∃ err, render askama r.template r.toEmail r.payload mailFrom = .error err

/-- **A row is not stranded**: it is sent, or failed for good after a render error or the sixth
attempt, or it will be due. -/
def MailOutbox.Settled (askama : Askama) (mailFrom : String) (now : Time) (r : MailOutbox) :
    Prop :=
  r.status = .sent ∨
    (r.status = .failed ∧ (r.Unrenderable askama mailFrom ∨ r.attempts = 6)) ∨
    ∃ d, r.isDue (now + d) = true

/-- What the states of a row say about its attempts. -/
def MailOutbox.Legal (askama : Askama) (mailFrom : String) (r : MailOutbox) : Prop :=
  match r.status with
  | .pending => r.attempts ≤ 5
  | .sending => 1 ≤ r.attempts ∧ r.attempts ≤ 6
  | .sent => r.attempts ≤ 6
  | .failed => r.attempts ≤ 6 ∧ (r.Unrenderable askama mailFrom ∨ r.attempts = 6)

namespace Worker

variable {askama : Askama} {mailFrom : String} {w w' : Worker} {a : Act}

/-- **What holds in every run**: the rows of the batch are `sending`, and nobody else's
business. -/
structure Sound (askama : Askama) (mailFrom : String) (w : Worker) : Prop where
  keyed : Table.Keyed MailOutbox.id w.rows
  legal : ∀ r ∈ w.rows, r.Legal askama mailFrom
  batch : ∀ row ∈ w.phase.batch, ∃ r ∈ w.rows, r.toRow = row ∧ r.status = .sending
  nodup : (w.phase.batch.map OutboxRow.id).Nodup
  /-- A row that failed to render is the only one to be given up early. -/
  mark : ∀ row err attempts rest, w.phase = .marking row (.failed err attempts) rest →
    attempts = row.attempts ∨
      (backoffSecs attempts = none ∧
        ∃ err, render askama row.template row.toEmail row.payload mailFrom = .error err)
  claimed : ∀ id ∈ w.claimed, ∃ r ∈ w.rows, r.id = id

/-- All rows that are `sending` are in the batch. -/
def Attended (w : Worker) : Prop :=
  ∀ r ∈ w.rows, r.status = .sending → r.toRow ∈ w.phase.batch

end Worker

/-! ### What the statements do -/

variable {now : Time} {limit : ℕ} {locked ids : List ℤ} {rows : List MailOutbox} {id : ℤ}

theorem Claimable.due (h : Claimable now limit locked rows ids) (hid : id ∈ ids) :
    ∃ r ∈ rows, r.id = id ∧ r.isDue now = true := by
  obtain ⟨order, hperm, -, hids⟩ := h
  obtain ⟨r, hr, rfl⟩ := List.mem_map.mp (hids.mem_iff.mp hid)
  have hr' := List.mem_filter.mp (hperm.mem_iff.mp (List.mem_of_mem_take hr))
  exact ⟨r, hr'.1, rfl, (Bool.and_eq_true_iff.mp hr'.2).1⟩

theorem Claimable.nodup (h : Claimable now limit locked rows ids)
    (hkeyed : Table.Keyed MailOutbox.id rows) : ids.Nodup := by
  obtain ⟨order, hperm, -, hids⟩ := h
  refine hids.nodup_iff.mpr ?_
  have horder : (order.map MailOutbox.id).Nodup :=
    (hperm.map MailOutbox.id).nodup_iff.mpr (hkeyed.sublist (List.filter_sublist.map _))
  exact horder.sublist ((List.take_sublist limit order).map _)

theorem mem_returning {row : OutboxRow} : row ∈ returning ids rows ↔
    ∃ id ∈ ids, ∃ r, rows.find? (fun r => decide (r.id = id)) = some r ∧ r.toRow = row := by
  simp only [returning, List.mem_filterMap, Option.map_eq_some_iff]

theorem returning_ids : ((returning ids rows).map OutboxRow.id).Sublist ids := by
  induction ids with
  | nil => exact List.Sublist.refl _
  | cons id ids ih =>
    rw [returning, List.filterMap_cons]
    cases hfind : rows.find? fun r => decide (r.id = id) with
    | none => exact ih.cons id
    | some r =>
      obtain ⟨-, rfl⟩ := Table.of_find?_eq_some hfind
      exact ih.cons_cons r.id

theorem find?_of_keyed (hkeyed : Table.Keyed MailOutbox.id rows) {r : MailOutbox} (hr : r ∈ rows) :
    rows.find? (fun r' => decide (r'.id = r.id)) = some r := by
  cases hfind : rows.find? fun r' => decide (r'.id = r.id) with
  | none => exact absurd (decide_eq_true rfl) (List.find?_eq_none.mp hfind r hr)
  | some r' =>
    obtain ⟨hr', hid⟩ := Table.of_find?_eq_some hfind
    rw [hkeyed.eq_of_key hr' hr hid]

/-- The row that a mark leaves of a row. -/
def Mark.change (now : Time) (r : MailOutbox) : Mark → MailOutbox
  | .sent messageId => { r with
      status := .sent, sentAt := some now, messageId := some messageId }
  | .failed err attempts =>
    match backoffSecs attempts with
    | none => { r with status := .failed, lastError := some err }
    | some secs => { r with
        status := .pending, lastError := some err, scheduledAt := now + secs }

theorem Mark.apply_eq (mark : Mark) : mark.apply now id rows =
    Table.update (fun r => decide (r.id = id)) (fun r => mark.change now r) rows := by
  cases mark with
  | sent messageId => rfl
  | failed err attempts =>
    dsimp only [Mark.apply, markFailed, Mark.change]
    cases backoffSecs attempts <;> rfl

/-- A mark leaves alone what makes a row what it is. -/
theorem Mark.change_same (mark : Mark) (r : MailOutbox) :
    (mark.change now r).id = r.id ∧ (mark.change now r).toRow = r.toRow ∧
      (mark.change now r).status ≠ .sending := by
  cases mark with
  | sent messageId => exact ⟨rfl, rfl, nofun⟩
  | failed err attempts =>
    dsimp only [Mark.change]
    split <;> exact ⟨rfl, rfl, nofun⟩

theorem mem_apply {mark : Mark} {r' : MailOutbox} : r' ∈ mark.apply now id rows ↔
    (∃ r ∈ rows, r.id = id ∧ mark.change now r = r') ∨ (r' ∈ rows ∧ r'.id ≠ id) := by
  rw [Mark.apply_eq, Table.mem_update]
  constructor
  · rintro ⟨r, hr, heq⟩
    split_ifs at heq with hid
    · exact .inl ⟨r, hr, of_decide_eq_true hid, heq⟩
    · rw [decide_eq_true_eq] at hid
      exact .inr ⟨heq ▸ hr, heq ▸ hid⟩
  · rintro (⟨r, hr, hid, heq⟩ | ⟨hr, hid⟩)
    · exact ⟨r, hr, by rw [if_pos (decide_eq_true hid), heq]⟩
    · exact ⟨r', hr, if_neg fun h => hid (of_decide_eq_true h)⟩

/-- The row that `claim_batch` leaves of a row. -/
def MailOutbox.claimed (r : MailOutbox) : MailOutbox :=
  { r with status := .sending, attempts := r.attempts + 1 }

theorem mem_claimBatch {r' : MailOutbox} : r' ∈ claimBatch ids rows ↔
    (∃ r ∈ rows, r.id ∈ ids ∧ r.claimed = r') ∨ (r' ∈ rows ∧ r'.id ∉ ids) := by
  rw [claimBatch, Table.mem_update]
  simp only [List.contains_iff_mem]
  constructor
  · rintro ⟨r, hr, heq⟩
    split_ifs at heq with hid
    · exact .inl ⟨r, hr, hid, heq⟩
    · exact .inr ⟨heq ▸ hr, heq ▸ hid⟩
  · rintro (⟨r, hr, hid, heq⟩ | ⟨hr, hid⟩)
    · exact ⟨r, hr, by rw [if_pos hid]; exact heq⟩
    · exact ⟨r', hr, if_neg hid⟩

namespace Worker

variable {askama : Askama} {mailFrom : String} {w w' : Worker} {a : Act}

@[simp] theorem batch_loop (rows : List OutboxRow) : (Phase.loop rows).batch = rows := by
  cases rows <;> rfl

theorem loop_ne_marking {rest rest' : List OutboxRow} {row : OutboxRow} {mark : Mark} :
    Phase.loop rest ≠ .marking row mark rest' := by
  cases rest <;> nofun

/-! ### Every run -/

/-- The table after a `claim_batch`. -/
theorem Sound.claimBatch (h : Sound askama mailFrom w)
    (hclaim : Claimable w.now limit locked w.rows ids) :
    Table.Keyed MailOutbox.id (Mailer.claimBatch ids w.rows) ∧
      (∀ r ∈ Mailer.claimBatch ids w.rows, r.Legal askama mailFrom) ∧
      ∀ id ∈ ids ++ w.claimed, ∃ r ∈ Mailer.claimBatch ids w.rows, r.id = id := by
  refine ⟨h.keyed.update fun r => rfl, fun r' hr' => ?_, fun id hid => ?_⟩
  · rcases mem_claimBatch.mp hr' with ⟨r, hr, hid, rfl⟩ | ⟨hr, -⟩
    · -- what is claimed was pending, with five attempts at most
      obtain ⟨r₀, hr₀, hid₀, hdue⟩ := hclaim.due hid
      obtain rfl := h.keyed.eq_of_key hr₀ hr hid₀
      have hpending : r₀.status = .pending :=
        of_decide_eq_true (Bool.and_eq_true_iff.mp hdue).1
      have hlegal := h.legal r₀ hr
      rw [MailOutbox.Legal, hpending] at hlegal
      dsimp only at hlegal
      exact ⟨Nat.le_add_left 1 _, Nat.succ_le_succ hlegal⟩
    · exact h.legal r' hr
  · have hold : ∃ r ∈ w.rows, r.id = id := by
      rcases List.mem_append.mp hid with hnew | hold
      · obtain ⟨r, hr, hrid, -⟩ := hclaim.due hnew
        exact ⟨r, hr, hrid⟩
      · exact h.claimed id hold
    obtain ⟨r, hr, rfl⟩ := hold
    by_cases hmem : r.id ∈ ids
    · exact ⟨r.claimed, mem_claimBatch.mpr (.inl ⟨r, hr, hmem, rfl⟩), rfl⟩
    · exact ⟨r, mem_claimBatch.mpr (.inr ⟨hr, hmem⟩), rfl⟩

/-- The table after a mark. -/
theorem Sound.apply {row : OutboxRow} {mark : Mark} {rest : List OutboxRow}
    (h : Sound askama mailFrom w) (hphase : w.phase = .marking row mark rest) :
    Table.Keyed MailOutbox.id (mark.apply w.now row.id w.rows) ∧
      (∀ r ∈ mark.apply w.now row.id w.rows, r.Legal askama mailFrom) ∧
      (∀ row' ∈ rest, ∃ r ∈ mark.apply w.now row.id w.rows, r.toRow = row' ∧ r.status = .sending) ∧
      ∀ id ∈ w.claimed, ∃ r ∈ mark.apply w.now row.id w.rows, r.id = id := by
  have hnodup := h.nodup
  have hbatch := h.batch
  rw [hphase] at hnodup hbatch
  obtain ⟨r₀, hr₀, rfl, hsending⟩ := hbatch row List.mem_cons_self
  refine ⟨?_, fun r' hr' => ?_, fun row' hrow' => ?_, fun id hid => ?_⟩
  · rw [Mark.apply_eq]
    exact h.keyed.update fun r => (mark.change_same r).1
  · rcases mem_apply.mp hr' with ⟨r, hr, hid, rfl⟩ | ⟨hr, -⟩
    · obtain rfl := h.keyed.eq_of_key hr hr₀ hid
      have hlegal := h.legal r hr
      rw [MailOutbox.Legal, hsending] at hlegal
      dsimp only at hlegal
      cases mark with
      | sent messageId => exact hlegal.2
      | failed err attempts =>
        have hmark := h.mark _ _ _ _ hphase
        dsimp only [Mark.change]
        cases hsecs : backoffSecs attempts with
        | none =>
          refine ⟨hlegal.2, ?_⟩
          rcases hmark with rfl | ⟨-, hrender⟩
          · have hsix := backoffSecs_eq_none hsecs hlegal.1
            exact .inr (Nat.le_antisymm hlegal.2 hsix)
          · exact .inl hrender
        | some secs =>
          rcases hmark with rfl | ⟨hnone, -⟩
          · exact le_of_backoffSecs hsecs
          · rw [hsecs] at hnone
            cases hnone
    · exact h.legal r' hr
  · obtain ⟨r, hr, rfl, hstatus⟩ := hbatch row' (List.mem_cons_of_mem _ hrow')
    refine ⟨r, mem_apply.mpr (.inr ⟨hr, fun hid => ?_⟩), rfl, hstatus⟩
    -- the batch has no row twice
    exact (List.nodup_cons.mp hnodup).1 (hid ▸ List.mem_map_of_mem hrow')
  · obtain ⟨r, hr, rfl⟩ := h.claimed id hid
    by_cases hmem : r.id = r₀.toRow.id
    · exact ⟨_, mem_apply.mpr (.inl ⟨r, hr, hmem, rfl⟩), (mark.change_same r).1⟩
    · exact ⟨r, mem_apply.mpr (.inr ⟨hr, hmem⟩), rfl⟩

theorem Sound.step (h : Sound askama mailFrom w) (hstep : Step askama mailFrom w a w') :
    Sound askama mailFrom w' := by
  cases hstep with
  | enqueue hins =>
    constructor
    · exact h.keyed.insert hins
    · intro r hr
      rcases (Table.mem_insert hins).mp hr with rfl | hr
      · exact Nat.zero_le 5
      · exact h.legal r hr
    · intro row hrow
      obtain ⟨r, hr, hrest⟩ := h.batch row hrow
      exact ⟨r, (Table.mem_insert hins).mpr (.inr hr), hrest⟩
    · exact h.nodup
    · exact h.mark
    · intro id hid
      obtain ⟨r, hr, hrest⟩ := h.claimed id hid
      exact ⟨r, (Table.mem_insert hins).mpr (.inr hr), hrest⟩
  | wait => exact ⟨h.keyed, h.legal, h.batch, h.nodup, h.mark, h.claimed⟩
  | @claim locked ids hidle hclaim =>
    obtain ⟨hkeyed, hlegal, hclaimed⟩ := h.claimBatch hclaim
    refine ⟨hkeyed, hlegal, fun row hrow => ?_, ?_, fun _ _ _ _ hphase => ?_, hclaimed⟩
    · rw [batch_loop] at hrow
      obtain ⟨id, hid, r, hfind, rfl⟩ := mem_returning.mp hrow
      obtain ⟨hr, rfl⟩ := Table.of_find?_eq_some hfind
      refine ⟨r, hr, rfl, ?_⟩
      rcases mem_claimBatch.mp hr with ⟨r₀, -, -, rfl⟩ | ⟨-, hno⟩
      · rfl
      · exact absurd hid hno
    · rw [batch_loop]
      exact (hclaim.nodup h.keyed).sublist returning_ids
    · exact absurd hphase loop_ne_marking
  | claimFails _ => exact h
  | claimLost hidle hclaim =>
    obtain ⟨hkeyed, hlegal, hclaimed⟩ := h.claimBatch hclaim
    refine ⟨hkeyed, hlegal, fun row hrow => ?_, h.nodup, h.mark, hclaimed⟩
    dsimp only at hrow
    rw [hidle] at hrow
    exact absurd hrow List.not_mem_nil
  | @renderFails row rest err _ hphase hrender =>
    have hbatch := h.batch
    have hnodup := h.nodup
    rw [hphase] at hbatch hnodup
    refine ⟨h.keyed, h.legal, hbatch, hnodup, ?_, h.claimed⟩
    intro row' err' attempts rest' heq
    obtain ⟨rfl, hmark, -⟩ := Phase.marking.inj heq
    obtain ⟨-, rfl⟩ := Mark.failed.inj hmark
    exact .inr ⟨rfl, err, hrender⟩
  | @send row rest mail answer hphase hrender =>
    have hbatch := h.batch
    have hnodup := h.nodup
    rw [hphase] at hbatch hnodup
    refine ⟨h.keyed, h.legal, hbatch, hnodup, ?_, h.claimed⟩
    intro row' err' attempts rest' heq
    obtain ⟨rfl, hmark, -⟩ := Phase.marking.inj heq
    cases answer with
    | ok messageId => cases hmark
    | error err => exact .inl (Mark.failed.inj hmark).2.symm
  | @mark row mark rest hphase =>
    obtain ⟨hkeyed, hlegal, hrest, hclaimed⟩ := h.apply hphase
    have hnodup := h.nodup
    rw [hphase] at hnodup
    refine ⟨hkeyed, hlegal, ?_, ?_, fun _ _ _ _ heq => absurd heq loop_ne_marking, hclaimed⟩
    · rwa [batch_loop]
    · rw [batch_loop]
      exact (List.nodup_cons.mp hnodup).2
  | @markFails row mark rest executed hphase =>
    cases executed with
    | true =>
      obtain ⟨hkeyed, hlegal, -, hclaimed⟩ := h.apply hphase
      exact ⟨hkeyed, hlegal, nofun, List.nodup_nil, nofun, hclaimed⟩
    | false => exact ⟨h.keyed, h.legal, nofun, List.nodup_nil, nofun, h.claimed⟩

/-! ### Rows that are sent -/

/-- A row is marked as sent. -/
def IsSent (w : Worker) (id : ℤ) : Prop := ∃ r ∈ w.rows, r.id = id ∧ r.status = .sent

/-- The row of a batch is not marked as sent. -/
theorem Sound.id_ne (h : Sound askama mailFrom w) {row : OutboxRow} (hrow : row ∈ w.phase.batch)
    (hsent : w.IsSent id) : row.id ≠ id := by
  obtain ⟨r, hr, rfl, hsending⟩ := h.batch row hrow
  obtain ⟨r', hr', rfl, hstatus⟩ := hsent
  intro hid
  rw [h.keyed.eq_of_key hr hr' hid, hstatus] at hsending
  cases hsending

theorem IsSent.apply {row : OutboxRow} {mark : Mark} (h : w.IsSent id) (hne : row.id ≠ id) :
    ∃ r ∈ mark.apply w.now row.id w.rows, r.id = id ∧ r.status = .sent := by
  obtain ⟨r, hr, rfl, hstatus⟩ := h
  exact ⟨r, mem_apply.mpr (.inr ⟨hr, hne.symm⟩), rfl, hstatus⟩

theorem IsSent.claimBatch (h : w.IsSent id) (hsound : Sound askama mailFrom w)
    (hclaim : Claimable w.now limit locked w.rows ids) :
    ∃ r ∈ Mailer.claimBatch ids w.rows, r.id = id ∧ r.status = .sent := by
  obtain ⟨r, hr, rfl, hstatus⟩ := h
  refine ⟨r, mem_claimBatch.mpr (.inr ⟨hr, fun hmem => ?_⟩), rfl, hstatus⟩
  obtain ⟨r', hr', hid, hdue⟩ := hclaim.due hmem
  have hpending := of_decide_eq_true (Bool.and_eq_true_iff.mp hdue).1
  rw [hsound.keyed.eq_of_key hr' hr hid, hstatus] at hpending
  cases hpending

/-- **A row that is sent stays so, and is not handed to the transport.** -/
theorem IsSent.step (h : w.IsSent id) (hsound : Sound askama mailFrom w)
    (hstep : Step askama mailFrom w a w') :
    w'.IsSent id ∧ w'.handed.count id = w.handed.count id := by
  cases hstep with
  | enqueue hins =>
    obtain ⟨r, hr, hrest⟩ := h
    exact ⟨⟨r, (Table.mem_insert hins).mpr (.inr hr), hrest⟩, rfl⟩
  | claim _ hclaim => exact ⟨h.claimBatch hsound hclaim, rfl⟩
  | claimLost _ hclaim => exact ⟨h.claimBatch hsound hclaim, rfl⟩
  | @send row rest mail answer hphase hrender =>
    have hne : row.id ≠ id := hsound.id_ne (hphase ▸ List.mem_cons_self) h
    exact ⟨h, List.count_cons_of_ne hne⟩
  | @mark row mark rest hphase =>
    have hne : row.id ≠ id := hsound.id_ne (hphase ▸ List.mem_cons_self) h
    exact ⟨h.apply hne, rfl⟩
  | @markFails row mark rest executed hphase =>
    have hne : row.id ≠ id := hsound.id_ne (hphase ▸ List.mem_cons_self) h
    cases executed with
    | true => exact ⟨h.apply hne, rfl⟩
    | false => exact ⟨h, rfl⟩
  | _ => exact ⟨h, rfl⟩

/-- What is sent is never handed to the transport again. -/
theorem IsSent.on (h : w.IsSent id) (hsound : Sound askama mailFrom w)
    (hw' : ((system askama mailFrom).startingAt w).Reachable w') :
    w'.handed.count id = w.handed.count id := by
  have hinv : Sound askama mailFrom w' ∧ w'.IsSent id ∧
      w'.handed.count id = w.handed.count id := by
    refine hw'.invariant (I := fun w' => Sound askama mailFrom w' ∧ w'.IsSent id ∧
      w'.handed.count id = w.handed.count id) (fun w₀ hinit => ?_) ?_
    · obtain rfl : w₀ = w := hinit
      exact ⟨hsound, h, rfl⟩
    · rintro w₁ a w₂ ⟨hsound, h, hcount⟩ - hstep
      obtain ⟨h', hcount'⟩ := h.step hsound hstep
      exact ⟨hsound.step hstep, h', hcount'.trans hcount⟩
  exact hinv.2.2

/-! ### Nothing is stranded -/

theorem Attended.step (h : w.Attended) (hsound : Sound askama mailFrom w) (hok : w.Acknowledged a)
    (hstep : Step askama mailFrom w a w') : w'.Attended := by
  cases hstep with
  | enqueue hins =>
    intro r hr hstatus
    rcases (Table.mem_insert hins).mp hr with rfl | hr
    · cases hstatus
    · exact h r hr hstatus
  | wait => exact h
  | @claim locked ids hidle hclaim =>
    intro r hr hstatus
    obtain ⟨hkeyed, -, -⟩ := hsound.claimBatch hclaim
    dsimp only
    rw [batch_loop]
    rcases mem_claimBatch.mp hr with ⟨r₀, hr₀, hid, rfl⟩ | ⟨hr₀, hid⟩
    · have hfind := find?_of_keyed hkeyed hr
      exact mem_returning.mpr ⟨r₀.id, hid, _, hfind, rfl⟩
    · -- it was `sending` before, when there was no batch
      have hbatch := h r hr₀ hstatus
      rw [hidle] at hbatch
      exact absurd hbatch List.not_mem_nil
  | claimFails _ => exact h
  | @claimLost locked ids hidle hclaim =>
    obtain rfl : ids = [] := hok
    intro r hr hstatus
    rcases mem_claimBatch.mp hr with ⟨_, _, hid, -⟩ | ⟨hr₀, -⟩
    · exact absurd hid List.not_mem_nil
    · exact h r hr₀ hstatus
  | @renderFails row rest err answer hphase hrender =>
    intro r hr hstatus
    have hbatch := h r hr hstatus
    rw [hphase] at hbatch
    exact hbatch
  | @send row rest mail answer hphase hrender =>
    intro r hr hstatus
    have hbatch := h r hr hstatus
    rw [hphase] at hbatch
    exact hbatch
  | @mark row mark rest hphase =>
    intro r' hr' hstatus
    dsimp only
    rw [batch_loop]
    rcases mem_apply.mp hr' with ⟨r, -, -, rfl⟩ | ⟨hr, hid⟩
    · exact absurd hstatus (mark.change_same r).2.2
    · have hbatch := h r' hr hstatus
      rw [hphase] at hbatch
      rcases List.mem_cons.mp hbatch with rfl | hrest
      · exact absurd rfl hid
      · exact hrest
  | @markFails row mark rest executed hphase =>
    obtain ⟨rfl, hlast⟩ := hok
    obtain rfl := hlast row mark rest hphase
    intro r' hr' hstatus
    rcases mem_apply.mp hr' with ⟨r, -, -, rfl⟩ | ⟨hr, hid⟩
    · exact absurd hstatus (mark.change_same r).2.2
    · have hbatch := h r' hr hstatus
      rw [hphase] at hbatch
      obtain rfl := List.mem_singleton.mp hbatch
      exact absurd rfl hid

theorem attended_of_reach (hw : (system askama mailFrom).Reach Acknowledged w) :
    Sound askama mailFrom w ∧ w.Attended := by
  refine hw.invariant (I := fun w => Sound askama mailFrom w ∧ w.Attended) ?_ ?_
  · rintro w ⟨now, rfl⟩
    exact ⟨⟨List.nodup_nil, nofun, nofun, List.nodup_nil, nofun, nofun⟩, nofun⟩
  · rintro w a w' ⟨hsound, h⟩ hok hstep
    exact ⟨hsound.step hstep, h.step hsound hok hstep⟩

end Worker

/-- A legal row that nobody is sending is not stranded. -/
theorem MailOutbox.Legal.settled {askama : Askama} {mailFrom : String} {r : MailOutbox}
    (h : r.Legal askama mailFrom) (hstatus : r.status ≠ .sending) (now : Time) :
    r.Settled askama mailFrom now := by
  rw [MailOutbox.Legal] at h
  cases hs : r.status with
  | pending =>
    refine .inr (.inr ⟨r.scheduledAt, ?_⟩)
    rw [MailOutbox.isDue, hs, Bool.and_eq_true_iff]
    exact ⟨rfl, decide_eq_true (Nat.le_add_left _ _)⟩
  | sending => exact absurd hs hstatus
  | sent => exact .inl hs
  | failed =>
    rw [hs] at h
    exact .inr (.inl ⟨hs, h.2⟩)

theorem MailOutbox.Legal.attempts {askama : Askama} {mailFrom : String} {r : MailOutbox}
    (h : r.Legal askama mailFrom) : r.attempts ≤ 6 := by
  rw [MailOutbox.Legal] at h
  split at h <;> omega

/-- **The outbox**: in a run that meets the condition, whenever the worker is between two
ticks, every row that has been claimed is there and not stranded. A row that is sent is not
handed to the transport in any run that goes on from there, and no row has more than six
attempts. -/
theorem outbox_of_reach {askama : Askama} {mailFrom : String} {w : Worker}
    (hw : (Worker.system askama mailFrom).Reach Worker.Acknowledged w) :
    (w.phase = .idle → ∀ id ∈ w.claimed, ∃ r ∈ w.rows, r.id = id ∧
      r.Settled askama mailFrom w.now) ∧
    (∀ r ∈ w.rows, r.status = .sent → ∀ w' : Worker,
      ((Worker.system askama mailFrom).startingAt w).Reachable w' →
        w'.handed.count r.id = w.handed.count r.id) ∧
    ∀ r ∈ w.rows, r.attempts ≤ 6 := by
  obtain ⟨hsound, hattended⟩ := Worker.attended_of_reach hw
  refine ⟨fun hidle id hid => ?_, fun r hr hstatus w' hw' => ?_, fun r hr => ?_⟩
  · obtain ⟨r, hr, rfl⟩ := hsound.claimed id hid
    refine ⟨r, hr, rfl, (hsound.legal r hr).settled (fun hstatus => ?_) w.now⟩
    have hbatch := hattended r hr hstatus
    rw [hidle] at hbatch
    exact absurd hbatch List.not_mem_nil
  · have hsent : w.IsSent r.id := ⟨r, hr, rfl, hstatus⟩
    exact hsent.on hsound hw'
  · exact (hsound.legal r hr).attempts

/-! ### One mail -/

/-- Templates that are empty files. -/
def noText : Askama := fun _ _ => .ok ""

/-- The row of a mail that is to be sent. -/
def firstMail : MailOutbox where
  id := 1
  template := "account_verify"
  toEmail := "alice@matehub.dev"
  payload := .object [("verify_url", some "https://matehub.io/verify-email")]
  status := .pending
  attempts := 0
  lastError := none
  messageId := none
  scheduledAt := 0
  sentAt := none

/-- The state in which the mail has been handed to the transport, which has accepted it. -/
def sentFirst : Worker where
  now := 0
  rows := [firstMail.claimed]
  phase := .marking firstMail.claimed.toRow (.sent "m") []
  claimed := [1]
  handed := [1]

theorem reach_sentFirst :
    (Worker.system noText "MateHub").Reach Worker.Acknowledged sentFirst := by
  have henqueue : Worker.Step noText "MateHub" ⟨0, [], .idle, [], []⟩
      (.enqueue 1 firstMail.template firstMail.toEmail firstMail.payload)
      ⟨0, [firstMail], .idle, [], []⟩ := .enqueue rfl
  have hclaimable : Claimable 0 batchSize [] [firstMail] [1] :=
    ⟨[firstMail], List.Perm.refl _, List.pairwise_singleton _ _, List.Perm.refl _⟩
  have hclaim : Worker.Step noText "MateHub" ⟨0, [firstMail], .idle, [], []⟩ (.claim [1])
      ⟨0, [firstMail.claimed], .processing firstMail.claimed.toRow [], [1], []⟩ :=
    .claim rfl hclaimable
  have hsend : Worker.Step noText "MateHub"
      ⟨0, [firstMail.claimed], .processing firstMail.claimed.toRow [], [1], []⟩
      (.process (.ok "m")) sentFirst := .send rfl rfl
  refine .step (.step (.step (.start ⟨0, rfl⟩) ?_ henqueue) ?_ hclaim) ?_ hsend <;> trivial

/-- The mail is marked. -/
def markedFirst : Worker where
  now := 0
  rows := [(Mark.sent "m").change 0 firstMail.claimed]
  phase := .loop []
  claimed := [1]
  handed := [1]

/-- It is settled, and in no run that goes on is it handed to the transport again. -/
theorem outbox_of_reach_first : ∃ r ∈ markedFirst.rows, r.id = 1 ∧ r.status = .sent ∧
    r.Settled noText "MateHub" 0 ∧ r.attempts ≤ 6 ∧
      ∀ w', ((Worker.system noText "MateHub").startingAt markedFirst).Reachable w' →
        w'.handed.count 1 = 1 := by
  have hmark : Worker.Step noText "MateHub" sentFirst .mark markedFirst := .mark (w := sentFirst) rfl
  obtain ⟨hsettled, hsent, hattempts⟩ := outbox_of_reach (reach_sentFirst.step (by trivial) hmark)
  obtain ⟨r, hr, hid, hr'⟩ := hsettled rfl 1 List.mem_cons_self
  have hstatus : r.status = .sent := by
    rw [List.mem_singleton.mp hr]
    rfl
  refine ⟨r, hr, hid, hstatus, hr', hattempts r hr, fun w' hw' => ?_⟩
  have hcount := hsent r hr hstatus w' hw'
  rwa [hid] at hcount

/-- **A stranded row**: the mark of a mail that has been sent fails. -/
theorem stranded : ¬ ∀ w : Worker, (Worker.system noText "MateHub").Reachable w →
    w.phase = .idle → ∀ id ∈ w.claimed, ∃ r ∈ w.rows, r.id = id ∧
      r.Settled noText "MateHub" w.now := by
  intro h
  have hfails : Worker.Step noText "MateHub" sentFirst (.markFails false)
      ⟨0, [firstMail.claimed], .idle, [1], [1]⟩ := .markFails (w := sentFirst) rfl
  have hreach := (reach_sentFirst.mono fun _ _ _ => trivial).step (by trivial) hfails
  obtain ⟨r, hr, -, hsettled⟩ := h _ hreach rfl 1 List.mem_cons_self
  obtain rfl := List.mem_singleton.mp hr
  rcases hsettled with hsent | ⟨hfailed, -⟩ | ⟨d, hdue⟩
  · cases hsent
  · cases hfailed
  · cases hdue

end Mailer

end MateHub
