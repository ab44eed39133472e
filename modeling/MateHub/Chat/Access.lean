import MateHub.Hub.Groups

/-!
# Access to a channel

Two services answer whether a user may read or write a channel. The chat service asks the
database itself: the participants of a direct message may do both, the admins of a hub may
do both in its channels, and everyone else may do what the rows of the channel grant. The
hub service has an endpoint for the other services to rely on, and looks at the rows alone.
So the two agree exactly where the rows settle the question
(`MateHub.Chat.resolvers_agree_iff`).
-/

namespace MateHub

namespace Chat

open Hub (Bits Db ChannelPermission Granted effectivePermissions hasPermission)

/-! ### The chat service -/

/-- What is asked for in a channel. -/
inductive Action
  | read
  | write
  deriving DecidableEq

namespace Action

/-- The permission bit that an action needs. -/
def bit : Action → Bits
  | read => Bits.read
  | write => Bits.write

/-- The letter of an action in the key of the cache. -/
def label : Action → Char
  | read => 'r'
  | write => 'w'

/-- The place of the bit of an action. -/
def place : Action → ℕ
  | read => 0
  | write => 1

end Action

/-- `check_uncached` -/
def checkUncached (db : Db) (hubId channelId userId : I64) (action : Action) : Bool :=
  match db.channel? hubId channelId with
  | none => false
  | some channel =>
    -- DMs ignore the bits: participation is enough
    if channel.channelType == "dm" then db.isParticipant channelId userId
    else if (db.resolveUserPerms hubId userId).isAdmin then true
    else
      let eff := effectivePermissions (db.channelPermsOf hubId channelId userId)
      hasPermission eff action.bit

/-- The flag of an action in what the hub service answers. -/
def flag (r : Hub.EffectiveResponse) : Action → Bool
  | .read => r.read
  | .write => r.write

variable {db : Db} {hubId channelId userId : I64} {action : Action}

theorem hasPermission_bit {perms : List ChannelPermission} (action : Action) :
    hasPermission (effectivePermissions perms) action.bit = true ↔
      Granted action.place perms := by
  rcases action with _ | _
  · exact Hub.hasPermission_effective (i := 0) (by decide)
  · exact Hub.hasPermission_effective (i := 1) (by decide)

/-- **What the chat service allows**, in terms of the rows. -/
theorem checkUncached_iff : checkUncached db hubId channelId userId action = true ↔
    ∃ c ∈ db.channels, c.id = channelId ∧ c.hubId = hubId ∧
      if c.channelType = "dm" then ⟨channelId, userId⟩ ∈ db.dmParticipants
      else (db.resolveUserPerms hubId userId).isAdmin = true ∨
        Granted action.place (db.channelPermsOf hubId channelId userId) := by
  rcases hc : db.channel? hubId channelId with _ | c
  · simp only [checkUncached, hc, Bool.false_eq_true, false_iff]
    rintro ⟨c, hmem, hid, hhub, -⟩
    rw [Db.channel?_eq_some.mpr ⟨hmem, hid, hhub⟩] at hc
    cases hc
  · have hrows : checkUncached db hubId channelId userId action = true ↔
        if c.channelType = "dm" then ⟨channelId, userId⟩ ∈ db.dmParticipants
        else (db.resolveUserPerms hubId userId).isAdmin = true ∨
          Granted action.place (db.channelPermsOf hubId channelId userId) := by
      rw [checkUncached, hc]
      by_cases hdm : c.channelType = "dm"
      · simp [hdm, Db.isParticipant_iff]
      · simp [hdm, hasPermission_bit]
    obtain ⟨hmem, hid, hhub⟩ := Db.channel?_eq_some.mp hc
    rw [hrows]
    constructor
    · exact fun h => ⟨c, hmem, hid, hhub, h⟩
    · rintro ⟨c', hmem', hid', hhub', h⟩
      rwa [db.pk_channels c hmem c' hmem' (hid.trans hid'.symm)]

theorem flag_iff : flag (Hub.getEffectivePermissions db hubId channelId userId) action = true ↔
    Granted action.place (db.channelPermsOf hubId channelId userId) := by
  rw [← hasPermission_bit]
  rcases action with _ | _ <;> exact Iff.rfl

/-! ### Where they agree -/

/-- **The rows settle the question** whether a user may do something in a channel: they
grant nothing where the hub has no such channel, as much as participation in a direct
message, and everything to an admin. -/
def RowsSettle (db : Db) (hubId channelId userId : I64) (action : Action) : Prop :=
  match db.channel? hubId channelId with
  | none => ¬ Granted action.place (db.channelPermsOf hubId channelId userId)
  | some c =>
    if c.channelType = "dm" then
      (Granted action.place (db.channelPermsOf hubId channelId userId) ↔
        ⟨channelId, userId⟩ ∈ db.dmParticipants)
    else (db.resolveUserPerms hubId userId).isAdmin = true →
      Granted action.place (db.channelPermsOf hubId channelId userId)

theorem flag_eq_iff : flag (Hub.getEffectivePermissions db hubId channelId userId) action =
    checkUncached db hubId channelId userId action ↔
      RowsSettle db hubId channelId userId action := by
  rw [Bool.eq_iff_iff, flag_iff, RowsSettle, checkUncached]
  rcases hc : db.channel? hubId channelId with _ | c
  · simp
  · by_cases hdm : c.channelType = "dm"
    · simp [hdm, Db.isParticipant_iff]
    · by_cases hadmin : (db.resolveUserPerms hubId userId).isAdmin = true
      · simp [hdm, hadmin]
      · simp [hdm, hadmin, hasPermission_bit]

/-- **The two services agree on a channel and a user exactly if the rows settle whether
the user may read and write.** -/
theorem resolvers_agree_iff (db : Db) (hubId channelId userId : I64) :
    ((Hub.getEffectivePermissions db hubId channelId userId).read =
        checkUncached db hubId channelId userId .read ∧
      (Hub.getEffectivePermissions db hubId channelId userId).write =
        checkUncached db hubId channelId userId .write) ↔
    RowsSettle db hubId channelId userId .read ∧ RowsSettle db hubId channelId userId .write := by
  rw [← flag_eq_iff, ← flag_eq_iff]
  rfl

open Hub.Seed in
/-- **The two services disagree on a direct message**: Bob has opened one with Charlie, and
may read and write there for the chat service, and not for the hub service. -/
theorem resolvers_disagree : ∃ r, Hub.openDm devSeed hub bob charlie (i64 3002) = .ok r ∧
    checkUncached r.2 hub r.1 bob .read = true ∧ checkUncached r.2 hub r.1 bob .write = true ∧
    (Hub.getEffectivePermissions r.2 hub r.1 bob).read = false ∧
    (Hub.getEffectivePermissions r.2 hub r.1 bob).write = false := by
  refine ⟨_, rfl, ?_⟩
  decide

end Chat

end MateHub
