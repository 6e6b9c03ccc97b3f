import Eloth.Chat

/-!
# Runs of the chat

The private channels together with the invitations that stand. An exclusion takes the invitation
of a guid away but only one player off the channel, so it must not leave another of the guid.
-/

namespace Eloth

/-- The chat, and the pairs of a private channel and a guid that was invited to it and has not
been excluded since. -/
structure ChatState where
  chat : Chat
  invited : List (Nat × Nat) := []

namespace ChatState

inductive Op where
  | createChannel (player : ChatPlayer) (standing : Standing) (canJoin : Bool) (channelId : Nat)
  | deleteChannel (standing : Standing) (channelId : Nat)
  | addUserToChannel (player : ChatPlayer) (standing : Standing) (canJoin onJoin : Bool)
      (channelId : Nat)
  | removeUserFromChannel (player : ChatPlayer) (standing : Standing) (canJoin : Bool)
      (channelId : Nat)
  | removeUserFromAllChannels (player : ChatPlayer)
  | playerCreatePrivateChannel (player : ChatPlayer) (standing : Standing) (canJoin : Bool)
  | playerChannelInvite (player invitePlayer : ChatPlayer)
  | playerChannelExclude (player excludePlayer : ChatPlayer)

def Op.apply (s : Chat) : Op → Chat
  | .createChannel player standing canJoin channelId =>
    (s.createChannel player standing canJoin channelId).2
  | .deleteChannel standing channelId => (s.deleteChannel standing channelId).2
  | .addUserToChannel player standing canJoin onJoin channelId =>
    (s.addUserToChannel player standing canJoin onJoin channelId).2
  | .removeUserFromChannel player standing canJoin channelId =>
    (s.removeUserFromChannel player standing canJoin channelId).2
  | .removeUserFromAllChannels player => s.removeUserFromAllChannels player
  | .playerCreatePrivateChannel player standing canJoin =>
    s.playerCreatePrivateChannel player standing canJoin
  | .playerChannelInvite player invitePlayer => s.playerChannelInvite player invitePlayer
  | .playerChannelExclude player excludePlayer => s.playerChannelExclude player excludePlayer

/-- What the operation does to the invitations that stand. -/
def Op.record (s : Chat) (invited : List (Nat × Nat)) : Op → List (Nat × Nat)
  | .playerChannelInvite player invitePlayer =>
    match s.getPrivateChannel player with
    | some channel =>
      if player = invitePlayer then invited else (channel.id, invitePlayer.guid) :: invited
    | none => invited
  | .playerChannelExclude player excludePlayer =>
    match s.getPrivateChannel player with
    | some channel =>
      if player = excludePlayer then invited
      else invited.filter fun e => e ≠ (channel.id, excludePlayer.guid)
    | none => invited
  | _ => invited

/-- An invitation goes with its channel. -/
def standingInvitations (s : ChatState) : List (Nat × Nat) :=
  s.invited.filter fun e => s.chat.privateChannels.any fun c => c.id = e.1

def next (s : ChatState) (op : Op) : ChatState where
  chat := op.apply s.chat
  invited := op.record s.chat s.standingInvitations

def system : Run.System ChatState Op where
  init s := ∃ normalChannels, (∀ c ∈ normalChannels, c.users = []) ∧
    s = { chat := { normalChannels := normalChannels } }
  step s op s' := s' = s.next op

/-- The private channels have an id of their own in the range and an owner of their own, and whoever
uses one is its owner or was invited and not excluded since. -/
structure Lawful (s : ChatState) : Prop where
  distinct : (s.chat.privateChannels.map fun c => c.id).Nodup
  range : ∀ c ∈ s.chat.privateChannels, 100 ≤ c.id ∧ c.id ≤ 9999
  owners : (s.chat.privateChannels.map fun c => c.owner).Nodup
  users : ∀ c ∈ s.chat.privateChannels, ∀ u ∈ c.users,
    u.guid = c.owner ∨ (c.id, u.guid) ∈ s.invited

/-- The player is a user of no channel, invited to none and owns none. -/
structure Absent (s : Chat) (player : ChatPlayer) : Prop where
  normal : ∀ c ∈ s.normalChannels, c.hasUser player = false
  party : ∀ c ∈ s.partyChannels, c.2.hasUser player = false
  guild : ∀ c ∈ s.guildChannels, c.2.hasUser player = false
  user : ∀ c ∈ s.privateChannels, c.hasUser player = false
  invite : ∀ c ∈ s.privateChannels, player.guid ∉ c.invites
  owner : ∀ c ∈ s.privateChannels, c.owner ≠ player.guid

/-- A player that is excluded is the only user of its guid, and is still invited if it is one. -/
def Sole (s : ChatState) : Op → Prop
  | .playerChannelExclude player excludePlayer =>
    ∀ c, s.chat.getPrivateChannel player = some c → player ≠ excludePlayer →
      ∀ u ∈ c.users, u.guid = excludePlayer.guid → u.guid ≠ c.owner →
        u.id = excludePlayer.id ∧ excludePlayer.guid ∈ c.invites
  | _ => True

/-! ## The channels after an operation -/

/-- Users and invitations of the channel are justified by the invitations that stand. -/
structure Good (invited : List (Nat × Nat)) (c : PrivateChatChannel) : Prop where
  users : ∀ u ∈ c.users, u.guid = c.owner ∨ (c.id, u.guid) ∈ invited
  invites : ∀ guid ∈ c.invites, (c.id, guid) ∈ invited

/-- Ids and owners are in order, and every channel is good. -/
structure Kept (s : Chat) (invited : List (Nat × Nat)) : Prop where
  distinct : (s.privateChannels.map fun c => c.id).Nodup
  range : ∀ c ∈ s.privateChannels, 100 ≤ c.id ∧ c.id ≤ 9999
  owners : (s.privateChannels.map fun c => c.owner).Nodup
  good : ∀ c ∈ s.privateChannels, Good invited c

theorem Kept.lawful {s : ChatState} (h : Kept s.chat s.invited) : Lawful s :=
  ⟨h.distinct, h.range, h.owners, fun c hc => (h.good c hc).users⟩

def key (c : PrivateChatChannel) : Nat × Nat := (c.id, c.owner)

variable {s s' : Chat} {c d : PrivateChatChannel} {player : ChatPlayer}
  {invited invited' : List (Nat × Nat)}

theorem Kept.eq_of_id (h : Kept s invited) (hc : c ∈ s.privateChannels)
    (hd : d ∈ s.privateChannels) (hid : c.id = d.id) : c = d :=
  List.inj_on_of_nodup_map h.distinct hc hd hid

/-- Channels are changed or taken away. -/
theorem Kept.of_good (h : Kept s invited)
    (hkeys : (s'.privateChannels.map key).Sublist (s.privateChannels.map key))
    (hgood : ∀ c ∈ s'.privateChannels, Good invited' c) : Kept s' invited' := by
  have hids := hkeys.map Prod.fst
  have howners := hkeys.map Prod.snd
  rw [List.map_map, List.map_map] at hids howners
  refine ⟨h.distinct.sublist hids, fun c hc => ?_, h.owners.sublist howners, hgood⟩
  obtain ⟨d, hd, hid⟩ := List.mem_map.mp (hids.subset (List.mem_map_of_mem hc))
  have hid : d.id = c.id := hid
  exact hid ▸ h.range d hd

/-- Each channel is changed by itself. -/
theorem Kept.of_map (h : Kept s invited) {f : PrivateChatChannel → PrivateChatChannel}
    (hchannels : s'.privateChannels = s.privateChannels.map f) (hkey : ∀ c, key (f c) = key c)
    (hgood : ∀ c ∈ s.privateChannels, Good invited' (f c)) : Kept s' invited' := by
  refine h.of_good ?_ fun c hc => ?_
  · have hsame : key ∘ f = key := funext hkey
    rw [hchannels, List.map_map, hsame]
  · rw [hchannels] at hc
    obtain ⟨d, hd, rfl⟩ := List.mem_map.mp hc
    exact hgood d hd

/-- Channels are taken away. -/
theorem Kept.of_filter (h : Kept s invited) {p : PrivateChatChannel → Bool}
    (hchannels : s'.privateChannels = s.privateChannels.filter p) : Kept s' invited := by
  refine h.of_good ?_ fun c hc => ?_
  · rw [hchannels]
    exact List.filter_sublist.map key
  · rw [hchannels] at hc
    exact h.good c (List.mem_filter.mp hc).1

theorem Kept.of_same (h : Kept s invited) (hchannels : s'.privateChannels = s.privateChannels) :
    Kept s' invited :=
  h.of_filter (p := fun _ => true) (by rw [hchannels, List.filter_true])

/-- Invitations of channels that are gone are forgotten. -/
theorem Kept.standing {s : ChatState} (h : Kept s.chat s.invited) :
    Kept s.chat s.standingInvitations := by
  refine h.of_map (f := id) (List.map_id _).symm (fun _ => rfl) fun c hc => ?_
  have hstands {guid : Nat} (hguid : (c.id, guid) ∈ s.invited) :
      (c.id, guid) ∈ s.standingInvitations :=
    List.mem_filter.mpr ⟨hguid, List.any_eq_true.mpr ⟨c, hc, by simp⟩⟩
  have hgood := h.good c hc
  exact ⟨fun u hu => (hgood.users u hu).imp_right hstands,
    fun guid hguid => hstands (hgood.invites guid hguid)⟩

/-- Users and invitations go. -/
theorem Good.less (h : Good invited d) {users : List ChatPlayer} {invites : List Nat}
    (husers : users ⊆ d.users) (hinvites : invites ⊆ d.invites) :
    Good invited { d with users := users, invites := invites } :=
  ⟨fun u hu => h.users u (husers hu), fun guid hguid => h.invites guid (hinvites hguid)⟩

theorem Good.user (h : Good invited d) {users : List ChatPlayer}
    (husers : ∀ u ∈ users, u ∈ d.users ∨ d.isInvited u.guid = true) :
    Good invited { d with users := users } := by
  refine ⟨fun u hu => ?_, h.invites⟩
  rcases husers u hu with hold | hnew
  · exact h.users u hold
  · rw [PrivateChatChannel.isInvited, decide_eq_true_eq] at hnew
    exact hnew.imp_right (h.invites u.guid)

/-! ## The operations -/

theorem Kept.setChannel (h : Kept s invited) {channel : ChatChannel} {ref : ChannelRef}
    (husers : ∀ c ∈ s.privateChannels, ref = .privateChannel c.id →
      ∀ u ∈ channel.users, u ∈ c.users ∨ c.isInvited u.guid = true) :
    Kept (s.setChannel channel ref) invited := by
  cases ref with
  | privateChannel id =>
    refine h.of_map rfl (fun c => ?_) fun c hc => ?_
    · by_cases hid : c.id = id <;> simp [hid, key]
    · by_cases hid : c.id = id
      · rw [if_pos hid]
        exact (h.good c hc).user (husers c hc (hid ▸ rfl))
      · rw [if_neg hid]
        exact h.good c hc
  | normalChannel | partyChannel | guildChannel => exact h.of_same rfl

theorem Kept.channel_private (h : Kept s invited) {id owner : Nat} {channel : ChatChannel}
    (hchannel : s.channel (.privateChannel id) = some (channel, owner))
    (hc : c ∈ s.privateChannels) (hid : c.id = id) : channel = c.toChatChannel := by
  obtain ⟨d, hfind, hd⟩ := Option.map_eq_some_iff.mp hchannel
  have hdid : d.id = id := by simpa using List.find?_some hfind
  obtain rfl := h.eq_of_id hc (List.mem_of_find?_eq_some hfind) (hid.trans hdid.symm)
  exact (congrArg Prod.fst hd).symm

theorem Kept.addUser (h : Kept s invited) {ref : ChannelRef} (onJoin : Bool)
    (hinvited : ∀ c ∈ s.privateChannels, ref = .privateChannel c.id →
      c.isInvited player.guid = true) : Kept (s.addUser player onJoin ref).2 invited := by
  rw [Chat.addUser]
  cases hchannel : s.channel ref with
  | none => exact h
  | some entry =>
    obtain ⟨channel, owner⟩ := entry
    refine h.setChannel fun c hc href u hu => ?_
    subst href
    obtain rfl := h.channel_private hchannel hc rfl
    rw [ChatChannel.addUser] at hu
    split_ifs at hu with hthere hverdict
    · exact .inl hu
    · exact .inl hu
    · rcases List.mem_cons.mp hu with rfl | hu
      · exact .inr (hinvited c hc rfl)
      · exact .inl hu

theorem getChannel_private {standing : Standing} {canJoin : Bool} {channelId id : Nat}
    (h : s.getChannel player standing canJoin channelId = some (.privateChannel id)) :
    ∃ c ∈ s.privateChannels, c.id = id ∧ c.isInvited player.guid = true := by
  rw [Chat.getChannel] at h
  split_ifs at h with hguild hparty hnormal hjoin hprivate
  · obtain ⟨guild, -, h⟩ := Option.bind_eq_some_iff.mp h
    split_ifs at h
    cases h
  · obtain ⟨party, -, h⟩ := Option.bind_eq_some_iff.mp h
    split_ifs at h
    cases h
  · cases h
  · cases h
    obtain ⟨c, hc, hmatch⟩ := List.any_eq_true.mp hprivate
    exact ⟨c, hc, by simpa using hmatch⟩

theorem Kept.addUserToChannel (h : Kept s invited) (standing : Standing) (canJoin onJoin : Bool)
    (channelId : Nat) :
    Kept (s.addUserToChannel player standing canJoin onJoin channelId).2 invited := by
  rw [Chat.addUserToChannel]
  cases href : s.getChannel player standing canJoin channelId with
  | none => exact h
  | some ref =>
    refine h.addUser onJoin fun c hc hprivate => ?_
    subst hprivate
    obtain ⟨d, hd, hid, hinvited⟩ := getChannel_private href
    rwa [h.eq_of_id hc hd hid.symm]

theorem Kept.deleteChannel (h : Kept s invited) (standing : Standing) (channelId : Nat) :
    Kept (s.deleteChannel standing channelId).2 invited := by
  rw [Chat.deleteChannel]
  split_ifs with hguild hparty
  · cases standing.guild <;> exact h.of_same rfl
  · cases standing.party <;> exact h.of_same rfl
  · exact h.of_filter rfl

theorem Kept.removeUserFromChannel (h : Kept s invited) (standing : Standing) (canJoin : Bool)
    (channelId : Nat) :
    Kept (s.removeUserFromChannel player standing canJoin channelId).2 invited := by
  rw [Chat.removeUserFromChannel]
  cases s.getChannel player standing canJoin channelId with
  | none => exact h
  | some ref =>
    cases hchannel : s.channel ref with
    | none => simpa [hchannel] using h
    | some entry =>
      obtain ⟨channel, owner⟩ := entry
      have hleft : Kept (s.setChannel (channel.removeUser player) ref) invited := by
        refine h.setChannel fun c hc href u hu => .inl ?_
        subst href
        obtain rfl := h.channel_private hchannel hc rfl
        exact (List.mem_filter.mp hu).1
      simp only [hchannel]
      split_ifs
      · exact hleft.deleteChannel standing channelId
      · exact hleft
      · exact h

theorem Kept.removeUserFromAllChannels (h : Kept s invited) (player : ChatPlayer) :
    Kept (s.removeUserFromAllChannels player) invited := by
  have hless : Kept
      { s with
        privateChannels := s.privateChannels.map fun c =>
          (c.removeInvite player.guid).removeUser player } invited := by
    refine h.of_map rfl (fun c => rfl) fun c hc => ?_
    exact (h.good c hc).less (List.filter_subset_self _) (List.filter_subset_self _)
  exact hless.of_filter rfl

theorem freeSlot_some {i : Nat} (h : s.freeSlot = some i) :
    100 ≤ i ∧ i ≤ 9999 ∧ ∀ c ∈ s.privateChannels, c.id ≠ i := by
  have hrange := List.mem_range'_1.mp (List.mem_of_find?_eq_some h)
  rw [Chat.freeSlot] at h
  have hfree := List.find?_some h
  rw [List.all_eq_true] at hfree
  exact ⟨hrange.1, by omega, fun c hc => by simpa using hfree c hc⟩

theorem Kept.emplacePrivate (h : Kept s invited) {i : Nat} (hslot : s.freeSlot = some i)
    (hnone : s.getPrivateChannel player = none) :
    Kept (s.emplacePrivate { id := i, owner := player.guid }) invited := by
  obtain ⟨hlow, hhigh, hfree⟩ := freeSlot_some hslot
  have hperm : (s.emplacePrivate { id := i, owner := player.guid }).privateChannels.Perm
      ({ id := i, owner := player.guid } :: s.privateChannels) :=
    List.perm_orderedInsert _ _ _
  have howner : ∀ c ∈ s.privateChannels, c.owner ≠ player.guid := fun c hc => by
    simpa using List.find?_eq_none.mp hnone c hc
  refine ⟨?_, fun c hc => ?_, ?_, fun c hc => ?_⟩
  · refine (hperm.map _).nodup_iff.mpr (List.nodup_cons.mpr ⟨fun hmem => ?_, h.distinct⟩)
    obtain ⟨c, hc, hid⟩ := List.mem_map.mp hmem
    exact hfree c hc hid
  · rcases List.mem_cons.mp (hperm.mem_iff.mp hc) with rfl | hc
    · exact ⟨hlow, hhigh⟩
    · exact h.range c hc
  · refine (hperm.map _).nodup_iff.mpr (List.nodup_cons.mpr ⟨fun hmem => ?_, h.owners⟩)
    obtain ⟨c, hc, hguid⟩ := List.mem_map.mp hmem
    exact howner c hc hguid
  · rcases List.mem_cons.mp (hperm.mem_iff.mp hc) with rfl | hc
    · exact ⟨by simp, by simp⟩
    · exact h.good c hc

/-- A private channel that is new belongs to the player. -/
theorem createChannel_cases (s : Chat) (player : ChatPlayer) (standing : Standing) (canJoin : Bool)
    (channelId : Nat) :
    (∃ i, s.freeSlot = some i ∧ s.getPrivateChannel player = none ∧
      s.createChannel player standing canJoin channelId =
        (some (.privateChannel i), s.emplacePrivate { id := i, owner := player.guid })) ∨
    (s.createChannel player standing canJoin channelId).2.privateChannels = s.privateChannels ∧
      ∀ i, (s.createChannel player standing canJoin channelId).1 ≠ some (.privateChannel i) := by
  rw [Chat.createChannel]
  split_ifs with hthere hguild hparty hprivate hrefused
  · exact .inr ⟨rfl, by simp⟩
  · cases standing.guild with
    | none => exact .inr ⟨rfl, by simp⟩
    | some guild => exact .inr ⟨by dsimp only; split_ifs <;> rfl, by simp⟩
  · cases standing.party with
    | none => exact .inr ⟨rfl, by simp⟩
    | some party => exact .inr ⟨by dsimp only; split_ifs <;> rfl, by simp⟩
  · exact .inr ⟨rfl, by simp⟩
  · rw [not_or, Option.not_isSome_iff_eq_none] at hrefused
    cases hslot : s.freeSlot with
    | none => exact .inr ⟨rfl, by simp⟩
    | some i => exact .inl ⟨i, rfl, hrefused.2, rfl⟩
  · exact .inr ⟨rfl, by simp⟩

theorem Kept.createChannel (h : Kept s invited) (standing : Standing) (canJoin : Bool)
    (channelId : Nat) : Kept (s.createChannel player standing canJoin channelId).2 invited := by
  rcases createChannel_cases s player standing canJoin channelId with
    ⟨i, hslot, hnone, hcreate⟩ | ⟨hsame, -⟩
  · rw [hcreate]
    exact h.emplacePrivate hslot hnone
  · exact h.of_same hsame

theorem Kept.playerCreatePrivateChannel (h : Kept s invited) (standing : Standing)
    (canJoin : Bool) : Kept (s.playerCreatePrivateChannel player standing canJoin) invited := by
  rw [Chat.playerCreatePrivateChannel]
  have hcreated : Kept (s.createChannel player standing canJoin CHANNEL_PRIVATE).2 invited :=
    h.createChannel standing canJoin CHANNEL_PRIVATE
  split_ifs
  · exact h
  · rcases createChannel_cases s player standing canJoin CHANNEL_PRIVATE with
      ⟨i, hslot, hnone, hcreate⟩ | ⟨hsame, hother⟩
    · rw [hcreate] at hcreated ⊢
      refine hcreated.addUser true fun c hc href => ?_
      have hid : i = c.id := ChannelRef.privateChannel.inj href
      have hnew : (⟨{ id := i }, player.guid, []⟩ : PrivateChatChannel) ∈
          (s.emplacePrivate { id := i, owner := player.guid }).privateChannels :=
        (List.mem_orderedInsert _).mpr (.inl rfl)
      rw [← hcreated.eq_of_id hnew hc hid]
      simp [PrivateChatChannel.isInvited]
    · generalize s.createChannel player standing canJoin CHANNEL_PRIVATE = result at hcreated hother ⊢
      obtain ⟨ref, chat⟩ := result
      cases ref with
      | none => exact hcreated
      | some ref =>
        exact hcreated.addUser true fun c hc href => absurd (congrArg some href) (hother c.id)

/-! ## Invitations and exclusions -/

theorem getPrivateChannel_some (h : s.getPrivateChannel player = some c) :
    c ∈ s.privateChannels ∧ c.owner = player.guid :=
  ⟨List.mem_of_find?_eq_some h, by simpa using List.find?_some h⟩

theorem key_invitePlayer (c : PrivateChatChannel) (invitePlayer : ChatPlayer) :
    key (c.invitePlayer invitePlayer) = key c := by
  rw [PrivateChatChannel.invitePlayer]
  split_ifs <;> rfl

theorem key_excludePlayer (c : PrivateChatChannel) (excludePlayer : ChatPlayer) :
    key (c.excludePlayer excludePlayer) = key c := by
  rw [PrivateChatChannel.excludePlayer]
  split_ifs <;> rfl

theorem key_at {f : PrivateChatChannel → PrivateChatChannel} (hf : ∀ c, key (f c) = key c)
    (id : Nat) (c : PrivateChatChannel) : key (if c.id = id then f c else c) = key c := by
  split_ifs
  · exact hf c
  · rfl

theorem Good.mono (h : Good invited c)
    (hle : ∀ guid, (c.id, guid) ∈ invited → (c.id, guid) ∈ invited') : Good invited' c :=
  ⟨fun u hu => (h.users u hu).imp_right (hle u.guid), fun guid hguid => hle guid (h.invites guid hguid)⟩

theorem Good.invitePlayer (h : Good invited c) (invitePlayer : ChatPlayer) :
    Good ((c.id, invitePlayer.guid) :: invited) (c.invitePlayer invitePlayer) := by
  have hmore := h.mono fun guid => List.mem_cons_of_mem (c.id, invitePlayer.guid)
  rw [PrivateChatChannel.invitePlayer]
  split_ifs
  · exact hmore
  · refine ⟨hmore.users, fun guid hguid => ?_⟩
    rcases List.mem_cons.mp hguid with rfl | hguid
    · exact List.mem_cons_self
    · exact hmore.invites guid hguid

theorem Kept.playerChannelInvite (h : Kept s invited) (player invitePlayer : ChatPlayer) :
    Kept (s.playerChannelInvite player invitePlayer)
      ((Op.playerChannelInvite player invitePlayer).record s invited) := by
  simp only [Chat.playerChannelInvite, Op.record]
  cases s.getPrivateChannel player with
  | none => exact h
  | some channel =>
    dsimp only
    split_ifs
    · exact h
    · refine h.of_map rfl (key_at (fun c => key_invitePlayer c invitePlayer) _) fun c hc => ?_
      split_ifs with hid
      · exact hid ▸ (h.good c hc).invitePlayer invitePlayer
      · exact (h.good c hc).mono fun guid => List.mem_cons_of_mem _

theorem mem_excluded {id id' guid guid' : Nat} :
    (id, guid) ∈ invited.filter (fun e => e ≠ (id', guid')) ↔
      (id, guid) ∈ invited ∧ (id = id' → guid ≠ guid') := by
  simp [List.mem_filter, imp_iff_not_or]

theorem Good.excludePlayer (h : Good invited c) {excludePlayer : ChatPlayer}
    (hsole : ∀ u ∈ c.users, u.guid = excludePlayer.guid → u.guid ≠ c.owner →
      u.id = excludePlayer.id ∧ excludePlayer.guid ∈ c.invites) :
    Good (invited.filter fun e => e ≠ (c.id, excludePlayer.guid))
      (c.excludePlayer excludePlayer) := by
  rw [PrivateChatChannel.excludePlayer]
  split_ifs with hinvited
  · constructor
    · intro u hu
      obtain ⟨hu, hid⟩ := List.mem_filter.mp hu
      refine or_iff_not_imp_left.mpr fun howner => mem_excluded.mpr ⟨?_, fun _ hguid => ?_⟩
      · exact (h.users u hu).resolve_left howner
      · exact of_decide_eq_true hid (hsole u hu hguid howner).1
    · intro guid hguid
      obtain ⟨hguid, hne⟩ := List.mem_filter.mp hguid
      exact mem_excluded.mpr ⟨h.invites guid hguid, fun _ => of_decide_eq_true hne⟩
  · constructor
    · intro u hu
      refine or_iff_not_imp_left.mpr fun howner => mem_excluded.mpr ⟨?_, fun _ hguid => ?_⟩
      · exact (h.users u hu).resolve_left howner
      · exact hinvited (hsole u hu hguid howner).2
    · intro guid hguid
      exact mem_excluded.mpr ⟨h.invites guid hguid, fun _ heq => hinvited (heq ▸ hguid)⟩

theorem Kept.playerChannelExclude (h : Kept s invited) {player excludePlayer : ChatPlayer}
    (hsole : ∀ c, s.getPrivateChannel player = some c → player ≠ excludePlayer →
      ∀ u ∈ c.users, u.guid = excludePlayer.guid → u.guid ≠ c.owner →
        u.id = excludePlayer.id ∧ excludePlayer.guid ∈ c.invites) :
    Kept (s.playerChannelExclude player excludePlayer)
      ((Op.playerChannelExclude player excludePlayer).record s invited) := by
  simp only [Chat.playerChannelExclude, Op.record]
  cases hchannel : s.getPrivateChannel player with
  | none => exact h
  | some channel =>
    dsimp only
    split_ifs with hself
    · exact h
    · refine h.of_map rfl (key_at (fun c => key_excludePlayer c excludePlayer) _) fun c hc => ?_
      split_ifs with hid
      · obtain rfl := h.eq_of_id hc (getPrivateChannel_some hchannel).1 hid
        exact (h.good c hc).excludePlayer (hsole c hchannel hself)
      · exact (h.good c hc).mono fun guid hguid => mem_excluded.mpr ⟨hguid, fun heq => absurd heq hid⟩

/-- Otherwise the exclusion leaves a user of the guid behind. -/
theorem sole_of_lawful {s : ChatState} {player excludePlayer : ChatPlayer}
    (h : Lawful (s.next (.playerChannelExclude player excludePlayer))) :
    s.Sole (.playerChannelExclude player excludePlayer) := by
  intro c hchannel hself u hu hguid howner
  have hmem : c.excludePlayer excludePlayer ∈
      (s.next (.playerChannelExclude player excludePlayer)).chat.privateChannels := by
    simp only [next, Op.apply, Chat.playerChannelExclude, hchannel, if_neg hself]
    exact List.mem_map.mpr ⟨c, (getPrivateChannel_some hchannel).1, if_pos rfl⟩
  have hgone : (c.id, u.guid) ∉
      (s.next (.playerChannelExclude player excludePlayer)).invited := by
    simp only [next, Op.record, hchannel, if_neg hself]
    exact fun hmem => (mem_excluded.mp hmem).2 rfl hguid
  by_contra hnot
  have hstays : u ∈ (c.excludePlayer excludePlayer).users := by
    rw [PrivateChatChannel.excludePlayer]
    split_ifs with hinvited
    · exact List.mem_filter.mpr ⟨hu, decide_eq_true fun hid => hnot ⟨hid, hinvited⟩⟩
    · exact hu
  have hkey := key_excludePlayer c excludePlayer
  have hid : (c.excludePlayer excludePlayer).id = c.id := congrArg Prod.fst hkey
  have hown : (c.excludePlayer excludePlayer).owner = c.owner := congrArg Prod.snd hkey
  have hlawful := h.users _ hmem u hstays
  rw [hid, hown] at hlawful
  exact hlawful.elim howner hgone

/-! ## Runs -/

theorem kept_next {s : ChatState} (h : Kept s.chat s.invited) {op : Op} (hsole : s.Sole op) :
    Kept (s.next op).chat (s.next op).invited := by
  have hkept := h.standing
  cases op with
  | createChannel player standing canJoin channelId =>
    exact hkept.createChannel standing canJoin channelId
  | deleteChannel standing channelId => exact hkept.deleteChannel standing channelId
  | addUserToChannel player standing canJoin onJoin channelId =>
    exact hkept.addUserToChannel standing canJoin onJoin channelId
  | removeUserFromChannel player standing canJoin channelId =>
    exact hkept.removeUserFromChannel standing canJoin channelId
  | removeUserFromAllChannels player => exact hkept.removeUserFromAllChannels player
  | playerCreatePrivateChannel player standing canJoin =>
    exact hkept.playerCreatePrivateChannel standing canJoin
  | playerChannelInvite player invitePlayer => exact hkept.playerChannelInvite player invitePlayer
  | playerChannelExclude player excludePlayer => exact hkept.playerChannelExclude hsole

theorem kept_of_reachableBy {s : ChatState} (h : Run.ReachableBy system Sole s) :
    Kept s.chat s.invited := by
  refine h.invariant (I := fun s => Kept s.chat s.invited) ?_ ?_
  · rintro s ⟨normalChannels, -, rfl⟩
    exact ⟨List.nodup_nil, by simp, List.nodup_nil, by simp⟩
  · rintro s op s' hkept hsole rfl
    exact kept_next hkept hsole

theorem hasUser_removeUser (channel : ChatChannel) (player : ChatPlayer) :
    (channel.removeUser player).hasUser player = false := by
  simp [ChatChannel.hasUser, ChatChannel.removeUser]

theorem absent_removeUserFromAllChannels (s : Chat) (player : ChatPlayer) :
    Absent (s.removeUserFromAllChannels player) player := by
  have hprivate : ∀ c ∈ (s.removeUserFromAllChannels player).privateChannels,
      c.hasUser player = false ∧ player.guid ∉ c.invites ∧ c.owner ≠ player.guid := by
    intro c hc
    obtain ⟨hc, howner⟩ := List.mem_filter.mp hc
    obtain ⟨d, -, rfl⟩ := List.mem_map.mp hc
    refine ⟨hasUser_removeUser d.toChatChannel player, ?_, of_decide_eq_true howner⟩
    simp [PrivateChatChannel.removeUser, PrivateChatChannel.removeInvite]
  refine ⟨fun c hc => ?_, fun c hc => ?_, fun c hc => ?_, fun c hc => (hprivate c hc).1,
    fun c hc => (hprivate c hc).2.1, fun c hc => (hprivate c hc).2.2⟩ <;>
  · obtain ⟨d, -, rfl⟩ := List.mem_map.mp hc
    exact hasUser_removeUser _ player

/-- The private channels are lawful as long as nobody is excluded while another player of the same
guid uses the channel, and such an exclusion breaks the law. -/
theorem private_channels_lawful {s : ChatState} (h : Run.ReachableBy system Sole s) :
    Lawful s ∧ (∀ op, Lawful (s.next op) ↔ s.Sole op) ∧
      ∀ player, Absent (s.chat.removeUserFromAllChannels player) player := by
  refine ⟨(kept_of_reachableBy h).lawful, fun op => ⟨fun hlawful => ?_, fun hsole => ?_⟩, fun player => ?_⟩
  · cases op with
    | playerChannelExclude player excludePlayer => exact sole_of_lawful hlawful
    | _ => trivial
  · exact (kept_next (kept_of_reachableBy h) hsole).lawful
  · exact absent_removeUserFromAllChannels s.chat player

/-! An owner, and two players of one guid. -/

def owner : ChatPlayer := ⟨1, 10⟩
def guest : ChatPlayer := ⟨2, 20⟩
def clone : ChatPlayer := ⟨3, 20⟩
def premium : Standing := ⟨none, none, true⟩

def opened : ChatState :=
  ((({ chat := { normalChannels := [] } } : ChatState).next
    (.playerCreatePrivateChannel owner premium true)).next (.playerChannelInvite owner guest)).next
      (.addUserToChannel guest premium true true 100)

theorem reachableBy_next {s : ChatState} (h : Run.ReachableBy system Sole s) (op : Op)
    (hsole : s.Sole op) : Run.ReachableBy system Sole (s.next op) :=
  h.step hsole rfl

theorem reachableBy_opened : Run.ReachableBy system Sole opened := by
  have hinit : Run.ReachableBy system Sole { chat := { normalChannels := [] } } :=
    .init ⟨[], by simp, rfl⟩
  have hcreated := reachableBy_next hinit (.playerCreatePrivateChannel owner premium true) trivial
  have hinvited := reachableBy_next hcreated (.playerChannelInvite owner guest) trivial
  exact reachableBy_next hinvited (.addUserToChannel guest premium true true 100) trivial

theorem private_channels_lawful_opened :
    Lawful opened ∧ Lawful (opened.next (.playerChannelExclude owner guest)) := by
  obtain ⟨hlawful, hnext, -⟩ := private_channels_lawful reachableBy_opened
  refine ⟨hlawful, (hnext (.playerChannelExclude owner guest)).mpr ?_⟩
  intro c hc hself u hu hguid howner
  have hchannel : opened.chat.getPrivateChannel owner =
      some { id := 100, users := [guest, owner], owner := 10, invites := [20] } := rfl
  obtain rfl := Option.some.inj (hchannel.symm.trans hc)
  rcases List.mem_cons.mp hu with rfl | hu
  · decide
  · obtain rfl := List.mem_singleton.mp hu
    exact absurd rfl howner

/-- The clone of the guest opens the channel too, and stays when the guest is excluded. -/
theorem exists_clone_left : ∃ s, Run.Reachable system s ∧ ¬ Lawful s := by
  have hjoined := reachableBy_next reachableBy_opened
    (.addUserToChannel clone premium true true 100) trivial
  refine ⟨_, hjoined.reachable.step' (i := .playerChannelExclude owner guest) rfl, fun h => ?_⟩
  have huser := h.users { id := 100, users := [clone, owner], owner := 10 }
    (List.mem_singleton.mpr rfl) clone List.mem_cons_self
  revert huser
  decide

end ChatState

end Eloth
