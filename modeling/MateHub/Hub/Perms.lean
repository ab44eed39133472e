import MateHub.Chat.Fanout
import MateHub.Lib.BitSet

/-!
# The shared permission model

Permissions are sets of bits: the bits that matter in a channel are allowed and denied by
rows of the channel, one per group, and the bits that matter in a hub belong to its
groups. What a user has in a channel is what some group of the user allows there and none
denies (`MateHub.Hub.hasPermission_effective`); in a hub, it is what some group has, and
the members of a group called `admin` have everything.
-/

namespace MateHub

namespace Hub

open Chat (I64)

/-- An `i32` of permission bits. -/
abbrev Bits := BitVec 32

namespace Bits

/-! ### The bits -/

def read : Bits := 1
def write : Bits := 2
def connect : Bits := 4
def speak : Bits := 8
def video : Bits := 16
def manageChannel : Bits := 32
def adminChannel : Bits := 64

def createTextChannels : Bits := 128
def createVoiceChannels : Bits := 256
def editOtherChannels : Bits := 512
def manageMembers : Bits := 1024
def invitePermanent : Bits := 2048
def createTempLinks : Bits := 4096
def manageRoles : Bits := 8192

def all : Bits := 16383
def memberChannel : Bits := 31

end Bits

/-! ### Channels -/

/-- A row of the table `channel_permissions`. -/
structure ChannelPermission where
  channelId : I64
  groupId : I64
  allowBits : Bits
  denyBits : Bits
  deriving DecidableEq

/-- Union of all group allows, minus the union of all denies. -/
def effectivePermissions (perms : List ChannelPermission) : Bits :=
  let allow := BitVec.unions ChannelPermission.allowBits perms
  let deny := BitVec.unions ChannelPermission.denyBits perms
  allow &&& ~~~deny

/-- `has_permission` -/
def hasPermission (effective bit : Bits) : Bool := effective &&& bit == bit

/-- Some row allows a bit, and none denies it. -/
def Granted (i : ℕ) (perms : List ChannelPermission) : Prop :=
  (∃ p ∈ perms, p.allowBits.getLsbD i = true) ∧ ∀ p ∈ perms, p.denyBits.getLsbD i = false

instance (i : ℕ) (perms : List ChannelPermission) : Decidable (Granted i perms) :=
  inferInstanceAs (Decidable (_ ∧ _))

/-- **The bits of a channel** are those that some row allows and none denies. -/
theorem hasPermission_effective {perms : List ChannelPermission} {i : ℕ} (hi : i < 32) :
    hasPermission (effectivePermissions perms) (BitVec.twoPow 32 i) = true ↔
      Granted i perms := by
  rw [hasPermission, BitVec.and_twoPow_beq _ hi, effectivePermissions, BitVec.getLsbD_and,
    BitVec.getLsbD_not, BitVec.getLsbD_unions, BitVec.getLsbD_unions]
  simp [hi, Granted]

/-- What is granted depends on which rows there are, not on their order or number. -/
theorem Granted.congr {perms perms' : List ChannelPermission} (h : ∀ p, p ∈ perms ↔ p ∈ perms')
    (i : ℕ) : Granted i perms ↔ Granted i perms' := by
  simp only [Granted, h]

/-! ### Hubs -/

/-- User's resolved hub-level permissions, and the position. -/
structure UserPerms where
  hubBits : Bits
  topPosition : ℤ
  isAdmin : Bool
  isCreator : Bool

namespace UserPerms

/-- `UserPerms::has` -/
def has (perms : UserPerms) (bit : Bits) : Bool :=
  perms.isAdmin || perms.hubBits &&& bit == bit

/-- `UserPerms::can_manage_position` -/
def canManagePosition (perms : UserPerms) (targetPosition : ℤ) : Bool :=
  perms.isAdmin || decide (perms.topPosition < targetPosition)

/-- `UserPerms::grantable_bits` -/
def grantableBits (perms : UserPerms) : Bits :=
  if perms.isAdmin then Bits.all else perms.hubBits

end UserPerms

end Hub

end MateHub
