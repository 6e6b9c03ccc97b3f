import Mathlib.Data.List.Sort
import Eloth.Lib.Run

/-!
# Chat channels

Normal channels come from a file, guild and party channels go with their group, and a player may
own a private channel, to which it invites others. Users are players, but invitations and the
owner are kept by guid.
-/

namespace Eloth

structure ChatPlayer where
  id : Nat
  guid : Nat
  deriving DecidableEq

/-- What a player is when the chat asks: the guild, the party and the account. -/
structure Standing where
  guild : Option Nat
  party : Option Nat
  isPremium : Bool

structure ChatChannel where
  id : Nat
  users : List ChatPlayer := []

structure PrivateChatChannel extends ChatChannel where
  owner : Nat
  invites : List Nat := []

structure Chat where
  normalChannels : List ChatChannel
  privateChannels : List PrivateChatChannel := []
  partyChannels : List (Nat × ChatChannel) := []
  guildChannels : List (Nat × ChatChannel) := []

/-- A pointer to a channel, by the map that holds it and its key there. -/
inductive ChannelRef where
  | normalChannel (id : Nat)
  | privateChannel (id : Nat)
  | partyChannel (party : Nat)
  | guildChannel (guild : Nat)
  deriving DecidableEq

def CHANNEL_GUILD : Nat := 0x00
def CHANNEL_PARTY : Nat := 0x01
def CHANNEL_PRIVATE : Nat := 0xFFFF

namespace ChatChannel

variable (channel : ChatChannel)

def hasUser (player : ChatPlayer) : Bool := channel.users.any fun u => u.id = player.id

/-- The verdict of the script is given. A channel without one lets everybody join. -/
def addUser (player : ChatPlayer) (onJoin : Bool) : Bool × ChatChannel :=
  if channel.hasUser player then (false, channel)
  else if !onJoin then (false, channel)
  else (true, { channel with users := player :: channel.users })

def removeUser (player : ChatPlayer) : ChatChannel :=
  { channel with users := channel.users.filter fun u => u.id ≠ player.id }

end ChatChannel

namespace PrivateChatChannel

variable (channel : PrivateChatChannel)

def isInvited (guid : Nat) : Bool := guid = channel.owner ∨ guid ∈ channel.invites

def removeInvite (guid : Nat) : PrivateChatChannel :=
  { channel with invites := channel.invites.filter fun g => g ≠ guid }

def removeUser (player : ChatPlayer) : PrivateChatChannel :=
  { channel with toChatChannel := channel.toChatChannel.removeUser player }

def invitePlayer (invitePlayer : ChatPlayer) : PrivateChatChannel :=
  if invitePlayer.guid ∈ channel.invites then channel
  else { channel with invites := invitePlayer.guid :: channel.invites }

def excludePlayer (excludePlayer : ChatPlayer) : PrivateChatChannel :=
  if excludePlayer.guid ∈ channel.invites then
    (channel.removeInvite excludePlayer.guid).removeUser excludePlayer
  else channel

end PrivateChatChannel

namespace Chat

variable (s : Chat)

def getPrivateChannel (player : ChatPlayer) : Option PrivateChatChannel :=
  s.privateChannels.find? fun c => c.owner = player.guid

/-- The verdict of the script of a normal channel is given. -/
def getChannel (player : ChatPlayer) (standing : Standing) (canJoin : Bool) (channelId : Nat) :
    Option ChannelRef :=
  if channelId = CHANNEL_GUILD then
    standing.guild.bind fun guild =>
      if s.guildChannels.any fun c => c.1 = guild then some (.guildChannel guild) else none
  else if channelId = CHANNEL_PARTY then
    standing.party.bind fun party =>
      if s.partyChannels.any fun c => c.1 = party then some (.partyChannel party) else none
  else if s.normalChannels.any fun c => c.id = channelId then
    if canJoin then some (.normalChannel channelId) else none
  else if s.privateChannels.any fun c => c.id = channelId ∧ c.isInvited player.guid then
    some (.privateChannel channelId)
  else none

/-- The channel behind the pointer, with its owner, which is 0 unless the channel is private. -/
def channel : ChannelRef → Option (ChatChannel × Nat)
  | .normalChannel id => (s.normalChannels.find? fun c => c.id = id).map (·, 0)
  | .privateChannel id =>
    (s.privateChannels.find? fun c => c.id = id).map fun c => (c.toChatChannel, c.owner)
  | .partyChannel party => (s.partyChannels.find? fun c => c.1 = party).map fun c => (c.2, 0)
  | .guildChannel guild => (s.guildChannels.find? fun c => c.1 = guild).map fun c => (c.2, 0)

def setChannel (channel : ChatChannel) : ChannelRef → Chat
  | .normalChannel id =>
    { s with normalChannels := s.normalChannels.map fun c => if c.id = id then channel else c }
  | .privateChannel id =>
    { s with
      privateChannels := s.privateChannels.map fun c =>
        if c.id = id then { c with users := channel.users } else c }
  | .partyChannel party =>
    { s with
      partyChannels := s.partyChannels.map fun c => if c.1 = party then (c.1, channel) else c }
  | .guildChannel guild =>
    { s with
      guildChannels := s.guildChannels.map fun c => if c.1 = guild then (c.1, channel) else c }

/-- The free private channel slot that is found first. -/
def freeSlot : Option Nat :=
  (List.range' 100 9900).find? fun i => s.privateChannels.all fun c => c.id ≠ i

def emplacePrivate (channel : PrivateChatChannel) : Chat :=
  { s with
    privateChannels := s.privateChannels.orderedInsert (fun c d => c.id ≤ d.id) channel }

def createChannel (player : ChatPlayer) (standing : Standing) (canJoin : Bool) (channelId : Nat) :
    Option ChannelRef × Chat :=
  if (s.getChannel player standing canJoin channelId).isSome then (none, s)
  else if channelId = CHANNEL_GUILD then
    match standing.guild with
    | some guild =>
      (some (.guildChannel guild),
        if s.guildChannels.any fun c => c.1 = guild then s
        else { s with guildChannels := (guild, { id := channelId }) :: s.guildChannels })
    | none => (none, s)
  else if channelId = CHANNEL_PARTY then
    match standing.party with
    | some party =>
      (some (.partyChannel party),
        if s.partyChannels.any fun c => c.1 = party then s
        else { s with partyChannels := (party, { id := channelId }) :: s.partyChannels })
    | none => (none, s)
  else if channelId = CHANNEL_PRIVATE then
    if !standing.isPremium ∨ (s.getPrivateChannel player).isSome then (none, s)
    else
      match s.freeSlot with
      | some i => (some (.privateChannel i), s.emplacePrivate { id := i, owner := player.guid })
      | none => (none, s)
  else (none, s)

def deleteChannel (standing : Standing) (channelId : Nat) : Bool × Chat :=
  if channelId = CHANNEL_GUILD then
    match standing.guild with
    | some guild =>
      (s.guildChannels.any fun c => c.1 = guild,
        { s with guildChannels := s.guildChannels.filter fun c => c.1 ≠ guild })
    | none => (false, s)
  else if channelId = CHANNEL_PARTY then
    match standing.party with
    | some party =>
      (s.partyChannels.any fun c => c.1 = party,
        { s with partyChannels := s.partyChannels.filter fun c => c.1 ≠ party })
    | none => (false, s)
  else
    (s.privateChannels.any fun c => c.id = channelId,
      { s with privateChannels := s.privateChannels.filter fun c => c.id ≠ channelId })

/-- The player joins the channel behind the pointer. -/
def addUser (player : ChatPlayer) (onJoin : Bool) (ref : ChannelRef) : Bool × Chat :=
  match s.channel ref with
  | some (channel, _) =>
    let (added, channel) := channel.addUser player onJoin
    (added, s.setChannel channel ref)
  | none => (false, s)

def addUserToChannel (player : ChatPlayer) (standing : Standing) (canJoin onJoin : Bool)
    (channelId : Nat) : Option ChannelRef × Chat :=
  match s.getChannel player standing canJoin channelId with
  | some ref =>
    let (added, s) := s.addUser player onJoin ref
    (if added then some ref else none, s)
  | none => (none, s)

def removeUserFromChannel (player : ChatPlayer) (standing : Standing) (canJoin : Bool)
    (channelId : Nat) : Bool × Chat :=
  match s.getChannel player standing canJoin channelId with
  | some ref =>
    match s.channel ref with
    | some (channel, owner) =>
      if channel.hasUser player then
        let s := s.setChannel (channel.removeUser player) ref
        (true, if owner = player.guid then (s.deleteChannel standing channelId).2 else s)
      else (false, s)
    | none => (false, s)
  | none => (false, s)

def removeUserFromAllChannels (player : ChatPlayer) : Chat where
  normalChannels := s.normalChannels.map fun c => c.removeUser player
  partyChannels := s.partyChannels.map fun c => (c.1, c.2.removeUser player)
  guildChannels := s.guildChannels.map fun c => (c.1, c.2.removeUser player)
  privateChannels :=
    (s.privateChannels.map fun c => (c.removeInvite player.guid).removeUser player).filter
      fun c => c.owner ≠ player.guid

/-! ## What players ask for -/

def playerCreatePrivateChannel (player : ChatPlayer) (standing : Standing) (canJoin : Bool) :
    Chat :=
  if !standing.isPremium then s
  else
    match s.createChannel player standing canJoin CHANNEL_PRIVATE with
    | (some ref, s) => (s.addUser player true ref).2
    | (none, s) => s

def updatePrivate (id : Nat) (f : PrivateChatChannel → PrivateChatChannel) : Chat :=
  { s with privateChannels := s.privateChannels.map fun c => if c.id = id then f c else c }

def playerChannelInvite (player invitePlayer : ChatPlayer) : Chat :=
  match s.getPrivateChannel player with
  | some channel =>
    if player = invitePlayer then s
    else s.updatePrivate channel.id fun c => c.invitePlayer invitePlayer
  | none => s

def playerChannelExclude (player excludePlayer : ChatPlayer) : Chat :=
  match s.getPrivateChannel player with
  | some channel =>
    if player = excludePlayer then s
    else s.updatePrivate channel.id fun c => c.excludePlayer excludePlayer
  | none => s

end Chat

end Eloth
