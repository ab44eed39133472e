import MateHub.Hub.Invites

/-!
# The calls of the hub service

The calls that write, with what is drawn for them: ids, tokens and sessions. Handling a call
gives a database, and some calls give an account to who makes them.
-/

namespace MateHub

namespace Hub

open Chat (I64)

/-- The calls of the endpoints that an access token lets through. -/
inductive Call
  | createGroup (hubId auth : I64) (body : CreateGroup) (nextId : I64)
  | updateGroup (hubId auth groupId : I64) (body : UpdateGroup)
  | deleteGroup (hubId auth groupId : I64)
  | addMemberToGroup (hubId auth groupId userId : I64)
  | removeMemberFromGroup (hubId auth groupId userId : I64)
  | setChannelPermission (hubId auth channelId groupId : I64) (body : SetPermission)
  | deleteChannelPermission (hubId auth channelId groupId : I64)
  | createChannel (hubId auth : I64) (body : CreateChannel) (nextId : I64)
  | updateChannel (hubId auth channelId : I64) (body : UpdateChannel)
  | deleteChannel (hubId auth channelId : I64)
  | uploadIcon (hubId auth channelId : I64) (storage : Option IconStorage)
      (field : Option IconField) (randSuffix : ℕ)
  | openDm (hubId auth other nextId : I64)
  | kickMember (hubId auth userId : I64)
  | createTempUser (hubId auth : I64) (body : CreateTempUser) (now : Time) (nextId : I64)
      (token : String)
  | revokeTempUser (hubId auth userId : I64) (now : Time)
  | joinViaToken (token : String) (now : Time) (session : String)
  | createInviteLink (hubId auth : I64) (body : CreateInviteLink) (now : Time) (nextId : I64)
      (token : String)
  | redeemInviteLink (parses : String → Bool) (token : String) (body : RedeemInviteLink)
      (now : Time) (nextId : I64)
  | createInvitation (parses : String → Bool) (hubId auth : I64) (body : CreateInvitation)
      (nextId : I64) (token : String)
  | acceptInvitation (token : String) (body : AcceptInvitation) (now : Time) (nextId : I64)
  | deletePendingPermanent (hubId auth invitationId : I64)
  | deletePendingTemp (hubId auth userId : I64) (now : Time)
  | deletePendingLink (hubId auth linkId : I64) (now : Time)

/-- What matters of a reply here: the account that it gives to the caller, if any. -/
abbrev Outcome := Except Failure (Option I64 × Db)

/-- No account comes of a call. -/
def Reply.silent {α : Type} (r : Reply α) : Outcome := r.map fun p => (none, p.2)

/-- An account comes of a call. -/
def Reply.gives (r : Reply I64) : Outcome := r.map fun p => (some p.1, p.2)

section Outcome

variable {db : Db} {account : Option I64}

theorem silent_eq_ok {α : Type} {r : Reply α} (h : Reply.silent r = .ok (account, db)) :
    account = none ∧ ∃ p, r = .ok p ∧ p.2 = db := by
  rcases r with e | p
  · cases h
  · obtain ⟨rfl, rfl⟩ := Prod.mk.inj (Except.ok.inj h)
    exact ⟨rfl, p, rfl, rfl⟩

theorem gives_eq_ok {r : Reply I64} (h : Reply.gives r = .ok (account, db)) :
    ∃ p, r = .ok p ∧ account = some p.1 ∧ p.2 = db := by
  rcases r with e | p
  · cases h
  · obtain ⟨rfl, rfl⟩ := Prod.mk.inj (Except.ok.inj h)
    exact ⟨p, rfl, rfl, rfl⟩

end Outcome

namespace Call

variable (db : Db)

/-- Handling a call. -/
def run : Call → Outcome
  | createGroup hubId auth body nextId => Reply.silent (Hub.createGroup db hubId auth body nextId)
  | updateGroup hubId auth groupId body => Reply.silent (Hub.updateGroup db hubId auth groupId body)
  | deleteGroup hubId auth groupId => Reply.silent (Hub.deleteGroup db hubId auth groupId)
  | addMemberToGroup hubId auth groupId userId =>
    Reply.silent (Hub.addMemberToGroup db hubId auth groupId userId)
  | removeMemberFromGroup hubId auth groupId userId =>
    Reply.silent (Hub.removeMemberFromGroup db hubId auth groupId userId)
  | setChannelPermission hubId auth channelId groupId body =>
    Reply.silent (Hub.setChannelPermission db hubId auth channelId groupId body)
  | deleteChannelPermission hubId auth channelId groupId =>
    Reply.silent (Hub.deleteChannelPermission db hubId auth channelId groupId)
  | createChannel hubId auth body nextId =>
    Reply.silent (Hub.createChannel db hubId auth body nextId)
  | updateChannel hubId auth channelId body =>
    Reply.silent (Hub.updateChannel db hubId auth channelId body)
  | deleteChannel hubId auth channelId => Reply.silent (Hub.deleteChannel db hubId auth channelId)
  | uploadIcon hubId auth channelId storage field randSuffix =>
    Reply.silent (Hub.uploadIcon db hubId auth channelId storage field randSuffix)
  | openDm hubId auth other nextId => Reply.silent (Hub.openDm db hubId auth other nextId)
  | kickMember hubId auth userId => Reply.silent (Hub.kickMember db hubId auth userId)
  | createTempUser hubId auth body now nextId token =>
    Reply.gives (Hub.createTempUser db hubId auth body now nextId token)
  | revokeTempUser hubId auth userId now =>
    Reply.silent (Hub.revokeTempUser db hubId auth userId now)
  | joinViaToken token now session => Reply.gives (Hub.joinViaToken db token now session)
  | createInviteLink hubId auth body now nextId token =>
    Reply.silent (Hub.createInviteLink db hubId auth body now nextId token)
  | redeemInviteLink parses token body now nextId =>
    Reply.gives (Hub.redeemInviteLink db parses token body now nextId)
  | createInvitation parses hubId auth body nextId token =>
    Reply.silent (Hub.createInvitation db parses hubId auth body nextId token)
  | acceptInvitation token body now nextId =>
    Reply.gives (Hub.acceptInvitation db token body now nextId)
  | deletePendingPermanent hubId auth invitationId =>
    Reply.silent (Hub.deletePendingPermanent db hubId auth invitationId)
  | deletePendingTemp hubId auth userId now =>
    Reply.silent (Hub.deletePendingTemp db hubId auth userId now)
  | deletePendingLink hubId auth linkId now =>
    Reply.silent (Hub.deletePendingLink db hubId auth linkId now)

end Call

end Hub

end MateHub
