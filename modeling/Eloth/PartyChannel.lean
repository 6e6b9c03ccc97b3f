import Eloth.Party

/-!
# Party channels

A party channel is found through the party of the player who asks, so a player who has already left
the party is not taken off its channel.
-/

namespace Eloth

/-! ## The chat -/

namespace Chat

variable (s : Chat)

/-- The guild and the party of the player get their channels when they have none. -/
def getChannelList (player : ChatPlayer) (standing : Standing) : Chat :=
  let s :=
    if standing.guild.isSome then (s.createChannel player standing true CHANNEL_GUILD).2 else s
  if standing.party.isSome then (s.createChannel player standing true CHANNEL_PARTY).2 else s

/-- The users that get what the player says. -/
def talkToChannel (player : ChatPlayer) (standing : Standing) (canJoin onSpeak : Bool)
    (channelId : Nat) : List ChatPlayer :=
  match s.getChannel player standing canJoin channelId with
  | some ref =>
    match s.channel ref with
    | some (channel, _) => if onSpeak && channel.hasUser player then channel.users else []
    | none => []
  | none => []

/-- The player is a user of the channel of the party. -/
def PartyUser (P : PartyId) (u : ChatPlayer) : Prop :=
  ∃ channel, (P, channel) ∈ s.partyChannels ∧ u ∈ channel.users

variable {s} {P : PartyId} {u player : ChatPlayer} {channel : ChatChannel} {standing : Standing}
  {canJoin : Bool} {channelId : Nat} {ref : ChannelRef}

theorem partyUser_of_channel {owner : Nat}
    (h : s.channel (.partyChannel P) = some (channel, owner)) (hu : u ∈ channel.users) :
    s.PartyUser P u := by
  obtain ⟨⟨Q, c⟩, hfind, heq⟩ := Option.map_eq_some_iff.mp h
  have hQ : Q = P := by simpa using List.find?_some hfind
  cases heq
  exact ⟨c, hQ ▸ List.mem_of_find?_eq_some hfind, hu⟩

theorem party_of_getChannel
    (h : s.getChannel player standing canJoin channelId = some (.partyChannel P)) :
    standing.party = some P := by
  unfold getChannel at h
  split_ifs at h
  · obtain ⟨guild, -, hguild⟩ := Option.bind_eq_some_iff.mp h
    split_ifs at hguild
    cases hguild
  · obtain ⟨Q, hparty, hQ⟩ := Option.bind_eq_some_iff.mp h
    split_ifs at hQ
    cases hQ
    exact hparty
  all_goals cases h

theorem getChannel_party (h : s.getChannel player standing canJoin CHANNEL_PARTY = some ref) :
    ∃ P, ref = .partyChannel P ∧ standing.party = some P := by
  unfold getChannel at h
  rw [if_neg (by decide), if_pos rfl] at h
  obtain ⟨P, hparty, hP⟩ := Option.bind_eq_some_iff.mp h
  split_ifs at hP
  cases hP
  exact ⟨P, rfl, hparty⟩

theorem PartyUser.setChannel (h : (s.setChannel channel ref).PartyUser P u) :
    s.PartyUser P u ∨ ref = .partyChannel P ∧ u ∈ channel.users := by
  cases ref with
  | partyChannel Q =>
    obtain ⟨c, hc, hu⟩ := h
    obtain ⟨d, hd, heq⟩ := List.mem_map.mp hc
    split_ifs at heq with hQ
    · cases heq
      exact .inr ⟨congrArg _ hQ.symm, hu⟩
    · cases heq
      exact .inl ⟨c, hd, hu⟩
  | normalChannel id => exact .inl h
  | privateChannel id => exact .inl h
  | guildChannel guild => exact .inl h

theorem PartyUser.addUser {onJoin : Bool} (h : (s.addUser player onJoin ref).2.PartyUser P u) :
    s.PartyUser P u ∨ ref = .partyChannel P ∧ u = player := by
  unfold Chat.addUser at h
  cases hchannel : s.channel ref with
  | none =>
    rw [hchannel] at h
    exact .inl h
  | some found =>
    obtain ⟨channel, owner⟩ := found
    rw [hchannel] at h
    obtain hold | ⟨rfl, hu⟩ := h.setChannel
    · exact .inl hold
    · unfold ChatChannel.addUser at hu
      split_ifs at hu
      · exact .inl (partyUser_of_channel hchannel hu)
      · exact .inl (partyUser_of_channel hchannel hu)
      · obtain rfl | hold := List.mem_cons.mp hu
        · exact .inr ⟨rfl, rfl⟩
        · exact .inl (partyUser_of_channel hchannel hold)

theorem PartyUser.addUserToChannel {onJoin : Bool}
    (h : (s.addUserToChannel player standing canJoin onJoin channelId).2.PartyUser P u) :
    s.PartyUser P u ∨ standing.party = some P ∧ u = player := by
  unfold Chat.addUserToChannel at h
  cases hget : s.getChannel player standing canJoin channelId with
  | none =>
    rw [hget] at h
    exact .inl h
  | some ref =>
    rw [hget] at h
    refine h.addUser.imp_right fun hnew => ?_
    obtain ⟨rfl, rfl⟩ := hnew
    exact ⟨party_of_getChannel hget, rfl⟩

/-- A new channel has no users. -/
theorem PartyUser.createChannel
    (h : (s.createChannel player standing canJoin channelId).2.PartyUser P u) :
    s.PartyUser P u := by
  unfold Chat.createChannel at h
  split_ifs at h
  · exact h
  · cases hguild : standing.guild <;> rw [hguild] at h
    · exact h
    · dsimp only at h
      split_ifs at h <;> exact h
  · cases hparty : standing.party <;> rw [hparty] at h
    · exact h
    · dsimp only at h
      split_ifs at h
      · exact h
      · obtain ⟨c, hc, hu⟩ := h
        obtain heq | hold := List.mem_cons.mp hc
        · cases heq
          cases hu
        · exact ⟨c, hold, hu⟩
  · exact h
  · cases hslot : s.freeSlot <;> rw [hslot] at h <;> exact h
  · exact h

/-- The new channel is no party channel. -/
theorem createChannel_private :
    (s.createChannel player standing canJoin CHANNEL_PRIVATE).1 ≠ some (.partyChannel P) := by
  unfold Chat.createChannel
  split_ifs with hthere hguild hparty
  · exact nofun
  · exact absurd hguild (by decide)
  · exact absurd hparty (by decide)
  · exact nofun
  · cases s.freeSlot <;> exact nofun
  · exact nofun

theorem PartyUser.deleteChannel (h : (s.deleteChannel standing channelId).2.PartyUser P u) :
    s.PartyUser P u := by
  unfold Chat.deleteChannel at h
  split_ifs at h
  · cases hguild : standing.guild <;> rw [hguild] at h <;> exact h
  · cases hparty : standing.party <;> rw [hparty] at h
    · exact h
    · obtain ⟨c, hc, hu⟩ := h
      exact ⟨c, List.mem_of_mem_filter hc, hu⟩
  · exact h

theorem PartyUser.removeUserFromChannel
    (h : (s.removeUserFromChannel player standing canJoin channelId).2.PartyUser P u) :
    s.PartyUser P u := by
  unfold Chat.removeUserFromChannel at h
  cases hget : s.getChannel player standing canJoin channelId with
  | none =>
    rw [hget] at h
    exact h
  | some ref =>
    rw [hget] at h
    cases hchannel : s.channel ref with
    | none =>
      simp only [hchannel] at h
      exact h
    | some found =>
      simp only [hchannel] at h
      have hleft : (s.setChannel (found.1.removeUser player) ref).PartyUser P u →
          s.PartyUser P u := by
        intro hset
        obtain hold | ⟨rfl, hu⟩ := hset.setChannel
        · exact hold
        · exact partyUser_of_channel hchannel (List.mem_of_mem_filter hu)
      split_ifs at h
      · exact hleft h.deleteChannel
      · exact hleft h
      · exact h

theorem PartyUser.removeUserFromAllChannels
    (h : (s.removeUserFromAllChannels player).PartyUser P u) :
    s.PartyUser P u ∧ u.id ≠ player.id := by
  obtain ⟨c, hc, hu⟩ := h
  obtain ⟨d, hd, heq⟩ := List.mem_map.mp hc
  cases heq
  obtain ⟨hin, hne⟩ := List.mem_filter.mp hu
  exact ⟨⟨d.2, hd, hin⟩, of_decide_eq_true hne⟩

theorem PartyUser.playerCreatePrivateChannel
    (h : (s.playerCreatePrivateChannel player standing canJoin).PartyUser P u) :
    s.PartyUser P u := by
  unfold Chat.playerCreatePrivateChannel at h
  split_ifs at h
  · exact h
  · cases hcreate : s.createChannel player standing canJoin CHANNEL_PRIVATE with
    | mk ref t =>
      have ht : t.PartyUser P u → s.PartyUser P u := by
        intro hu
        have hcreated := congrArg (fun result => result.2.PartyUser P u) hcreate
        exact PartyUser.createChannel (hcreated.mpr hu)
      rw [hcreate] at h
      cases ref with
      | none => exact ht h
      | some ref =>
        obtain hold | ⟨rfl, -⟩ := h.addUser
        · exact ht hold
        · exact absurd (congrArg Prod.fst hcreate) createChannel_private

theorem PartyUser.playerChannelInvite {invitePlayer : ChatPlayer}
    (h : (s.playerChannelInvite player invitePlayer).PartyUser P u) : s.PartyUser P u := by
  unfold Chat.playerChannelInvite at h
  cases hchannel : s.getPrivateChannel player <;> simp only [hchannel] at h
  · exact h
  · split_ifs at h <;> exact h

theorem PartyUser.playerChannelExclude {excludePlayer : ChatPlayer}
    (h : (s.playerChannelExclude player excludePlayer).PartyUser P u) : s.PartyUser P u := by
  unfold Chat.playerChannelExclude at h
  cases hchannel : s.getPrivateChannel player <;> simp only [hchannel] at h
  · exact h
  · split_ifs at h <;> exact h

theorem PartyUser.getChannelList (h : (s.getChannelList player standing).PartyUser P u) :
    s.PartyUser P u := by
  unfold Chat.getChannelList at h
  dsimp only at h
  split_ifs at h
  · exact h.createChannel.createChannel
  · exact h.createChannel
  · exact h.createChannel
  · exact h

end Chat

/-! ## Who is taken out of a party -/

/-- Two players are in the party, and nobody is invited. -/
def Party.isPair (party : Party) : Bool :=
  party.memberList.length = 1 && party.inviteList.isEmpty

/-- The leader is alone, with the player as the only invited one. -/
def Party.restsOn (party : Party) (player : Nat) : Bool :=
  party.memberList.isEmpty && party.inviteList = [player]

namespace PartyWorld

variable (w : PartyWorld)

def IsPair (P : PartyId) : Prop := ∃ party, w.parties P = some party ∧ party.isPair

def RestsOn (P : PartyId) (player : Nat) : Prop :=
  ∃ party, w.parties P = some party ∧ party.restsOn player

/-- The operation takes the player, who is in the party, out of it. -/
def Takes (P : PartyId) (x : Nat) : Operation → Prop
  | .playerRevokePartyInvitation player invitedPlayer =>
    w.party player = some P ∧ w.RestsOn P invitedPlayer
  | .playerLeaveParty player infight =>
    infight = false ∧ w.party player = some P ∧ (x = player ∨ w.IsPair P)
  | .logout player =>
    w.party player = some P ∧ (x = player ∨ w.IsPair P) ∨
      P ∈ w.invitePartyList player ∧ w.RestsOn P player
  | .disband Q => Q = P
  | .removeInvite Q player => Q = P ∧ w.RestsOn P player
  | .removeMember Q player => Q = P ∧ w.party player = some P ∧ (x = player ∨ w.IsPair P)
  | _ => False

variable {w} {P Q : PartyId} {party : Party} {x player : Nat} {invited : Nat → List PartyId}

theorem disband_party (hP : w.parties P = some party)
    (hx : x ∉ party.leader :: party.memberList) : (w.disband P).party x = w.party x := by
  rw [disband_eq hP]
  exact if_neg hx

theorem disband_parties (hQ : Q ≠ P) : (w.disband P).parties Q = w.parties Q := by
  cases hP : w.parties P with
  | none => rw [PartyWorld.disband, hP]
  | some party =>
    rw [disband_eq hP]
    exact Function.update_of_ne hQ ..

theorem disband_party_some (h : (w.disband P).party x = some Q) : w.party x = some Q := by
  cases hP : w.parties P with
  | none => rwa [PartyWorld.disband, hP] at h
  | some party =>
    rw [disband_eq hP] at h
    exact (ite_eq_iff.mp h).elim (fun hgone => absurd hgone.2.symm (Option.some_ne_none Q)) And.right

@[simp] theorem disband_chat : (w.disband P).chat = w.chat := by
  cases hP : w.parties P with
  | none => rw [PartyWorld.disband, hP]
  | some party => rw [disband_eq hP]

theorem Linked.not_mem_of_ne (h : w.Linked invited) (hP : w.parties P = some party)
    (hx : w.party x = some Q) (hQ : Q ≠ P) : x ∉ party.leader :: party.memberList := by
  rw [← h.mem_players hP, hx]
  exact fun heq => hQ (Option.some.inj heq)

theorem Linked.party_disband (h : w.Linked invited) (hx : w.party x = some Q) (hQ : Q ≠ P) :
    (w.disband P).party x = some Q := by
  cases hP : w.parties P with
  | none => rwa [PartyWorld.disband, hP]
  | some party => rw [disband_party hP (h.not_mem_of_ne hP hx hQ), hx]

/-! ## Invitations that are taken back -/

/-- An invitation is taken back, and then the party is disbanded if it has become empty. -/
theorem removeInvite_eq {removeFromPlayer : Bool} (hP : w.parties P = some party)
    (hin : player ∈ party.inviteList) :
    ∃ w', w'.party = w.party ∧ w'.chat = w.chat ∧
      w'.parties = Function.update w.parties P
        (some { party with inviteList := party.inviteList.erase player }) ∧
      w.removeInvite P player removeFromPlayer =
        if Party.empty { party with inviteList := party.inviteList.erase player } then
          w'.disband P
        else w' := by
  unfold PartyWorld.removeInvite
  rw [hP]
  dsimp only
  rw [if_pos hin]
  refine ⟨if removeFromPlayer then
    (w.setPartyAt P { party with inviteList := party.inviteList.erase player
      }).removePartyInvitation player P
    else w.setPartyAt P { party with inviteList := party.inviteList.erase player },
    ?_, ?_, ?_, rfl⟩ <;> split_ifs <;> rfl

theorem removeInvite_same {removeFromPlayer : Bool}
    (h : ∀ party, w.parties P = some party → player ∉ party.inviteList) :
    w.removeInvite P player removeFromPlayer = w := by
  unfold PartyWorld.removeInvite
  cases hP : w.parties P with
  | none => rfl
  | some party => exact if_neg (h party hP)

/-- The last invitation is taken back. -/
theorem restsOn_of_empty (hin : player ∈ party.inviteList)
    (hempty : Party.empty { party with inviteList := party.inviteList.erase player }) :
    party.restsOn player := by
  rw [Party.empty, Bool.and_eq_true] at hempty
  obtain ⟨hmembers, hinvitees⟩ := hempty
  have hnil : party.inviteList.erase player = [] := List.isEmpty_iff.mp hinvitees
  have hperm := List.perm_cons_erase hin
  rw [hnil] at hperm
  rw [Party.restsOn, Bool.and_eq_true]
  exact ⟨hmembers, decide_eq_true (List.perm_singleton.mp hperm)⟩

/-- Other parties stay as they are, and pointers are only taken away. -/
theorem removeInvite_frame {removeFromPlayer : Bool} :
    (w.removeInvite P player removeFromPlayer).chat = w.chat ∧
      (∀ Q, Q ≠ P → (w.removeInvite P player removeFromPlayer).parties Q = w.parties Q) ∧
      ∀ x Q, (w.removeInvite P player removeFromPlayer).party x = some Q → w.party x = some Q := by
  by_cases h : ∃ party, w.parties P = some party ∧ player ∈ party.inviteList
  · obtain ⟨party, hP, hin⟩ := h
    obtain ⟨w', hparty, hchat, hparties, heq⟩ := @removeInvite_eq w P party player removeFromPlayer
      hP hin
    rw [heq, ← hparty]
    split_ifs
    · refine ⟨disband_chat.trans hchat, fun Q hQ => ?_, fun x Q hx => disband_party_some hx⟩
      rw [disband_parties hQ, hparties, Function.update_of_ne hQ]
    · exact ⟨hchat, fun Q hQ => by rw [hparties, Function.update_of_ne hQ], fun x Q hx => hx⟩
  · rw [removeInvite_same fun party hP hin => h ⟨party, hP, hin⟩]
    exact ⟨rfl, fun _ _ => rfl, fun _ _ hx => hx⟩

theorem Linked.party_removeInvite {removeFromPlayer : Bool} (h : w.Linked invited)
    (hx : w.party x = some Q) (hrests : Q = P → ¬ w.RestsOn P player) :
    (w.removeInvite P player removeFromPlayer).party x = some Q := by
  by_cases hinvited : ∃ party, w.parties P = some party ∧ player ∈ party.inviteList
  · obtain ⟨party, hP, hin⟩ := hinvited
    obtain ⟨w', hparty, -, hparties, heq⟩ := @removeInvite_eq w P party player removeFromPlayer
      hP hin
    rw [heq]
    split_ifs with hempty
    · have hQ : Q ≠ P := fun hQ => hrests hQ ⟨party, hP, restsOn_of_empty hin hempty⟩
      have hself : w'.parties P =
          some { party with inviteList := party.inviteList.erase player } := by
        rw [hparties, Function.update_self]
      have hout : x ∉ party.leader :: party.memberList := h.not_mem_of_ne hP hx hQ
      rw [disband_party hself hout, hparty, hx]
    · rw [hparty, hx]
  · rwa [removeInvite_same fun party hP hin => hinvited ⟨party, hP, hin⟩]

/-- The loop over the invitations of a player takes nobody out of a party that does not rest on one
of them. -/
theorem Kept.party_foldl_removeInvite {old : PartyId → Option Party} (l : List PartyId)
    (h : w.Kept old (Function.update invited player l)) (hx : w.party x = some Q)
    (hrests : Q ∈ l → ¬ w.RestsOn Q player) :
    (l.foldl (fun w P => w.removeInvite P player false) w).party x = some Q := by
  induction l generalizing w with
  | nil => exact hx
  | cons P l ih =>
    obtain ⟨hhead, hkept, -⟩ := h.removeInvite_head
    refine ih hkept (h.linked.party_removeInvite hx fun hQ => ?_) fun hQ hrest => ?_
    · exact hQ ▸ hrests (hQ ▸ List.mem_cons_self)
    · have hne : Q ≠ P := fun heq => hhead (heq ▸ hQ)
      rw [RestsOn, removeInvite_frame.2.1 Q hne] at hrest
      exact hrests (List.mem_cons_of_mem _ hQ) hrest

theorem foldl_removeInvite_frame (l : List PartyId) (w : PartyWorld) :
    (l.foldl (fun w P => w.removeInvite P player false) w).chat = w.chat ∧
      (∀ Q, Q ∉ l →
        (l.foldl (fun w P => w.removeInvite P player false) w).parties Q = w.parties Q) ∧
      ∀ x Q, (l.foldl (fun w P => w.removeInvite P player false) w).party x = some Q →
        w.party x = some Q := by
  induction l generalizing w with
  | nil => exact ⟨rfl, fun _ _ => rfl, fun _ _ hx => hx⟩
  | cons P l ih =>
    obtain ⟨hchat, hparties, hparty⟩ := ih (w.removeInvite P player false)
    obtain ⟨hchat', hparties', hparty'⟩ := @removeInvite_frame w P player false
    refine ⟨hchat.trans hchat', fun Q hQ => ?_, fun x Q hx => hparty' x Q (hparty x Q hx)⟩
    obtain ⟨hne, hnot⟩ := not_or.mp (List.mem_cons.not.mp hQ)
    exact (hparties Q hnot).trans (hparties' Q hne)

theorem Kept.party_clearPartyInvitations {old : PartyId → Option Party}
    (h : w.Kept old w.invitePartyList) (hx : w.party x = some Q)
    (hrests : Q ∈ w.invitePartyList player → ¬ w.RestsOn Q player) :
    (w.clearPartyInvitations player).party x = some Q := by
  have hstart :
      w.Kept old (Function.update w.invitePartyList player (w.invitePartyList player)) := by
    rwa [Function.update_eq_self]
  exact hstart.party_foldl_removeInvite _ hx hrests

/-! ## A player leaves -/

theorem passPartyLeadership_frame :
    (w.passPartyLeadership P player).chat = w.chat ∧
      (w.passPartyLeadership P player).party = w.party := by
  unfold PartyWorld.passPartyLeadership
  cases w.parties P with
  | none => exact ⟨rfl, rfl⟩
  | some party =>
    dsimp only
    split_ifs <;> exact ⟨rfl, rfl⟩

theorem departParty_chat {missingLeader : Bool} :
    (w.departParty P player missingLeader).chat = w.chat := by
  unfold PartyWorld.departParty
  cases w.parties P with
  | none => rfl
  | some party =>
    dsimp only
    rw [closeParty_eq]
    split_ifs
    · exact disband_chat
    · rfl

theorem leaveParty_chat : (w.leaveParty P player).chat = w.chat := by
  unfold PartyWorld.leaveParty
  cases w.parties P with
  | none => rfl
  | some party =>
    dsimp only
    split_ifs
    · rfl
    · cases party.memberList with
      | nil => exact departParty_chat
      | cons heir others =>
        dsimp only
        split_ifs
        · exact departParty_chat
        · exact departParty_chat.trans passPartyLeadership_frame.1
    · exact departParty_chat

/-- Another player stays, unless the party is disbanded after all. -/
theorem departParty_party {missingLeader : Bool} (hne : x ≠ player)
    (hstays : ∀ party, w.parties P = some party →
      x ∈ party.leader :: party.memberList.erase player →
        missingLeader = false ∧
          Party.empty { party with memberList := party.memberList.erase player } = false) :
    (w.departParty P player missingLeader).party x = w.party x := by
  unfold PartyWorld.departParty
  cases hP : w.parties P with
  | none => rfl
  | some party =>
    dsimp only
    rw [closeParty_eq]
    have hleft : Function.update w.party player none x = w.party x := Function.update_of_ne hne ..
    split_ifs with hgone
    · have hout : x ∉ party.leader :: party.memberList.erase player := by
        intro hin
        obtain ⟨hmissing, hempty⟩ := hstays party hP hin
        rw [hmissing, hempty] at hgone
        exact Bool.false_ne_true hgone
      rw [disband_party (w := (w.setPartyAt P
        { party with memberList := party.memberList.erase player }).setParty player none)
        (Function.update_self ..) hout]
      exact hleft
    · exact hleft

/-- The last member leaves. -/
theorem isPair_of_empty (hin : player ∈ party.memberList)
    (hempty : Party.empty { party with memberList := party.memberList.erase player }) :
    party.isPair := by
  rw [Party.empty, Bool.and_eq_true] at hempty
  obtain ⟨hmembers, hinvitees⟩ := hempty
  have hnil : party.memberList.erase player = [] := List.isEmpty_iff.mp hmembers
  have hlength := (List.perm_cons_erase hin).length_eq
  rw [hnil] at hlength
  rw [Party.isPair, Bool.and_eq_true]
  exact ⟨decide_eq_true hlength, hinvitees⟩

theorem Linked.party_leaveParty (h : w.Linked invited) (hx : w.party x = some Q)
    (hstays : Q = P → w.party player = some P → x ≠ player ∧ ¬ w.IsPair P) :
    (w.leaveParty P player).party x = some Q := by
  unfold PartyWorld.leaveParty
  cases hP : w.parties P with
  | none => exact hx
  | some party =>
    dsimp only
    split_ifs with houtsider hleader
    · exact hx
    · subst hleader
      have hmember : w.party party.leader = some P := (h.mem_players hP).mpr List.mem_cons_self
      have hne : x ≠ party.leader := by
        rintro rfl
        exact (hstays (Option.some.inj (hx.symm.trans hmember)) hmember).1 rfl
      cases hlist : party.memberList with
      | nil =>
        dsimp only
        rw [departParty_party hne, hx]
        intro party' hparty hin
        cases hP.symm.trans hparty
        rw [hlist] at hin
        exact absurd (List.mem_singleton.mp hin) hne
      | cons heir others =>
        dsimp only
        split_ifs with hpair
        · rw [Bool.and_eq_true, List.isEmpty_iff, List.isEmpty_iff] at hpair
          have hQ : Q ≠ P := fun hQ => (hstays hQ hmember).2 ⟨party, hP, by
            simp [Party.isPair, hlist, hpair]⟩
          rw [departParty_party hne, hx]
          intro party' hparty hin
          cases hP.symm.trans hparty
          exact absurd ((List.erase_sublist.cons_cons _).subset hin) (h.not_mem_of_ne hP hx hQ)
        · rw [h.passPartyLeadership_eq hP hlist, departParty_party hne]
          · exact hx
          intro party' hparty _
          cases (Function.update_self P _ w.parties).symm.trans hparty
          refine ⟨rfl, ?_⟩
          have herase : (party.leader :: party.memberList.erase heir).erase party.leader =
              others := by
            rw [List.erase_cons_head, hlist, List.erase_cons_head]
          rw [Party.empty, herase]
          exact Bool.eq_false_iff.mpr hpair
    · have hmember : w.party player = some P := by
        by_contra hnot
        exact houtsider ⟨hnot, hleader⟩
      have hne : x ≠ player := by
        rintro rfl
        exact (hstays (Option.some.inj (hx.symm.trans hmember)) hmember).1 rfl
      have hin : player ∈ party.memberList :=
        (List.mem_cons.mp ((h.mem_players hP).mp hmember)).resolve_left (Ne.symm hleader)
      rw [departParty_party hne, hx]
      intro party' hparty hstill
      cases hP.symm.trans hparty
      have hQ : Q = P := by
        by_contra hQ
        exact h.not_mem_of_ne hP hx hQ ((List.erase_sublist.cons_cons _).subset hstill)
      exact ⟨rfl, Bool.eq_false_iff.mpr fun hempty =>
        (hstays hQ hmember).2 ⟨party, hP, isPair_of_empty hin hempty⟩⟩

/-! ## The commands -/

theorem Linked.not_mem_invited (h : w.Linked invited) (hx : w.party x = some P) :
    P ∉ invited x := fun hin =>
  h.outside P x ((h.invited_iff x P).mp hin) ((h.party_iff x P).mp hx)

theorem Kept.party_logout {old : PartyId → Option Party} (h : w.Kept old w.invitePartyList)
    (hx : w.party x = some Q) (htakes : ¬ w.Takes Q x (.logout player)) :
    (w.logout player).party x = some Q := by
  obtain ⟨hleaves, hrests⟩ := not_or.mp htakes
  have hcleared : (w.clearPartyInvitations player).party x = some Q :=
    h.party_clearPartyInvitations hx fun hin hrest => hrests ⟨hin, hrest⟩
  have hkept : (w.clearPartyInvitations player).Kept old _ := h.clearPartyInvitations
  unfold PartyWorld.logout
  dsimp only
  cases hparty : (w.clearPartyInvitations player).party player with
  | none => exact hcleared
  | some P =>
    refine hkept.linked.party_leaveParty hcleared ?_
    rintro rfl -
    -- the own party is not one of those the player is invited to
    obtain ⟨-, hparties, hsome⟩ :=
      @foldl_removeInvite_frame player (w.invitePartyList player) w
    have hown : w.party player = some Q := hsome player Q hparty
    have hsame : (w.clearPartyInvitations player).parties Q = w.parties Q :=
      hparties Q (h.linked.not_mem_invited hown)
    rw [IsPair, hsame]
    exact ⟨fun heq => hleaves ⟨hown, .inl heq⟩, fun hpair => hleaves ⟨hown, .inr hpair⟩⟩

theorem invitePlayer_frame :
    (w.invitePlayer P player).chat = w.chat ∧ (w.invitePlayer P player).party = w.party := by
  unfold PartyWorld.invitePlayer
  cases w.parties P with
  | none => exact ⟨rfl, rfl⟩
  | some party =>
    dsimp only
    split_ifs
    · exact ⟨rfl, rfl⟩
    · unfold addPartyInvitation
      split_ifs <;> exact ⟨rfl, rfl⟩

theorem joinParty_frame :
    (w.joinParty P player).chat = w.chat ∧
      ((w.joinParty P player).party = w.party ∨
        (∃ party, w.parties P = some party ∧ player ∈ party.inviteList) ∧
          (w.joinParty P player).party = Function.update w.party player (some P)) := by
  unfold PartyWorld.joinParty
  cases w.parties P with
  | none => exact ⟨rfl, .inl rfl⟩
  | some party =>
    dsimp only
    split_ifs with hin
    · exact ⟨rfl, .inr ⟨⟨party, rfl, hin⟩, rfl⟩⟩
    · exact ⟨rfl, .inl rfl⟩

theorem playerInviteToParty_frame {invitedPlayer : Nat} {address : PartyId} :
    (w.playerInviteToParty player invitedPlayer address).chat = w.chat ∧
      ((w.playerInviteToParty player invitedPlayer address).party = w.party ∨
        w.party player = none ∧ (w.playerInviteToParty player invitedPlayer address).party =
          Function.update w.party player (some address)) := by
  unfold PartyWorld.playerInviteToParty
  split_ifs
  · exact ⟨rfl, .inl rfl⟩
  · cases w.party player with
    | none =>
      obtain ⟨hchat, hparty⟩ := @invitePlayer_frame (w.newParty player address) address
        invitedPlayer
      exact ⟨hchat, .inr ⟨rfl, hparty⟩⟩
    | some P =>
      dsimp only
      split_ifs
      · exact ⟨invitePlayer_frame.1, .inl invitePlayer_frame.2⟩
      · exact ⟨rfl, .inl rfl⟩

/-- A player with a party keeps it when another one gets a party. -/
theorem party_update (hx : w.party x = some P) (hnone : w.party player = none)
    (new : Option PartyId) : Function.update w.party player new x = some P := by
  have hne : x ≠ player := by
    rintro rfl
    rw [hx] at hnone
    cases hnone
  rw [Function.update_of_ne hne, hx]

theorem party_joinParty (hx : w.party x = some P)
    (hnone : ∀ party, w.parties Q = some party → player ∈ party.inviteList →
      w.party player = none) : (w.joinParty Q player).party x = some P := by
  obtain ⟨-, hsame | ⟨⟨party, hQ, hin⟩, hparty⟩⟩ := @joinParty_frame w Q player
  · rw [hsame, hx]
  · rw [hparty]
    exact party_update hx (hnone party hQ hin) _

/-- Whoever is in a party stays there, but for those whom the operation takes out. -/
theorem Linked.stays (h : w.Linked w.invitePartyList) {operation : Operation}
    (hchecked : w.Checked operation) (hx : w.party x = some P)
    (htakes : ¬ w.Takes P x operation) : (w.apply operation).party x = some P := by
  cases operation with
  | playerInviteToParty player invitedPlayer address =>
    obtain ⟨-, hsame | ⟨hnone, hparty⟩⟩ :=
      @playerInviteToParty_frame w player invitedPlayer address
    · exact (congrFun hsame x).trans hx
    · exact (congrFun hparty x).trans (party_update hx hnone _)
  | playerJoinParty player leader =>
    obtain hsame | ⟨Q, hnone, hjoin⟩ := w.apply_playerJoinParty player leader
    · rwa [hsame]
    · rw [hjoin]
      exact party_joinParty hx fun _ _ _ => hnone
  | playerRevokePartyInvitation player invitedPlayer =>
    obtain hsame | ⟨Q, hown, hrevoke⟩ := w.apply_playerRevokePartyInvitation player invitedPlayer
    · rwa [hsame]
    · rw [hrevoke]
      exact h.party_removeInvite hx fun hQ hrest => htakes ⟨hQ ▸ hown, hQ ▸ hrest⟩
  | playerPassPartyLeadership player newLeader =>
    obtain hsame | ⟨Q, hpass⟩ := w.apply_playerPassPartyLeadership player newLeader
    · rwa [hsame]
    · rw [hpass, passPartyLeadership_frame.2, hx]
  | playerLeaveParty player infight =>
    obtain hsame | ⟨Q, hcalm, -, hleave⟩ := w.apply_playerLeaveParty player infight
    · rwa [hsame]
    · rw [hleave]
      refine h.party_leaveParty hx fun hQ hmember => ⟨fun heq => ?_, fun hpair => ?_⟩
      · exact htakes ⟨hcalm, hQ ▸ hmember, .inl heq⟩
      · exact htakes ⟨hcalm, hQ ▸ hmember, .inr (hQ ▸ hpair)⟩
  | logout player =>
    have hkept : w.Kept w.parties w.invitePartyList := ⟨h, fun _ _ hparty => .inr hparty⟩
    exact hkept.party_logout hx htakes
  | create player address =>
    unfold PartyWorld.apply
    dsimp only
    split_ifs with hsome
    · exact hx
    · have hnone : w.party player = none := by simpa using hsome
      exact party_update hx hnone _
  | disband Q => exact h.party_disband hx fun hP => htakes hP.symm
  | setLeader Q player => exact (congrFun passPartyLeadership_frame.2 x).trans hx
  | addInvite Q player => exact (congrFun invitePlayer_frame.2 x).trans hx
  | removeInvite Q player =>
    exact h.party_removeInvite hx fun hP hrest => htakes ⟨hP.symm, hP ▸ hrest⟩
  | addMember Q player => exact party_joinParty hx hchecked
  | removeMember Q player =>
    refine h.party_leaveParty hx fun hP hmember => ⟨fun heq => ?_, fun hpair => ?_⟩
    · exact htakes ⟨hP.symm, hP ▸ hmember, .inl heq⟩
    · exact htakes ⟨hP.symm, hP ▸ hmember, .inr (hP ▸ hpair)⟩

theorem logout_chat :
    ∃ guid, (w.logout player).chat = w.chat.removeUserFromAllChannels ⟨player, guid⟩ := by
  have hcleared : (w.clearPartyInvitations player).chat = w.chat :=
    (foldl_removeInvite_frame (w.invitePartyList player) w).1
  unfold PartyWorld.logout
  dsimp only
  rw [← hcleared]
  cases (w.clearPartyInvitations player).party player with
  | none => exact ⟨_, rfl⟩
  | some P =>
    refine ⟨_, congrArg (fun chat : Chat => chat.removeUserFromAllChannels _) ?_⟩
    exact leaveParty_chat

theorem apply_chat {operation : Operation} (hlogout : ∀ player, operation ≠ .logout player) :
    (w.apply operation).chat = w.chat := by
  cases operation with
  | playerInviteToParty player invitedPlayer address => exact playerInviteToParty_frame.1
  | playerJoinParty player leader =>
    obtain hsame | ⟨P, -, hjoin⟩ := w.apply_playerJoinParty player leader
    · rw [hsame]
    · rw [hjoin, joinParty_frame.1]
  | playerRevokePartyInvitation player invitedPlayer =>
    obtain hsame | ⟨P, -, hrevoke⟩ := w.apply_playerRevokePartyInvitation player invitedPlayer
    · rw [hsame]
    · rw [hrevoke]
      exact removeInvite_frame.1
  | playerPassPartyLeadership player newLeader =>
    obtain hsame | ⟨P, hpass⟩ := w.apply_playerPassPartyLeadership player newLeader
    · rw [hsame]
    · rw [hpass, passPartyLeadership_frame.1]
  | playerLeaveParty player infight =>
    obtain hsame | ⟨P, -, -, hleave⟩ := w.apply_playerLeaveParty player infight
    · rw [hsame]
    · rw [hleave, leaveParty_chat]
  | logout player => exact absurd rfl (hlogout player)
  | create player address =>
    unfold PartyWorld.apply
    dsimp only
    split_ifs <;> rfl
  | disband Q => exact disband_chat
  | setLeader Q player => exact passPartyLeadership_frame.1
  | addInvite Q player => exact invitePlayer_frame.1
  | removeInvite Q player => exact removeInvite_frame.1
  | addMember Q player => exact joinParty_frame.1
  | removeMember Q player => exact leaveParty_chat

/-! ## Runs -/

inductive ChatRequest where
  | party (operation : Operation)
  | getChannelList (player : Nat)
  | playerOpenChannel (player channelId : Nat) (canJoin onJoin : Bool)
  | playerCloseChannel (player channelId : Nat) (canJoin : Bool)
  | playerCreatePrivateChannel (player : Nat) (canJoin : Bool)
  | playerChannelInvite (player invitePlayer : Nat)
  | playerChannelExclude (player excludePlayer : Nat)
  | talkToChannel (player channelId : Nat) (canJoin onSpeak : Bool)
  /-- The client of the player connects anew. -/
  | connect (player : Nat)

/-- The users that get what the player says. -/
def talkToChannel (w : PartyWorld) (player channelId : Nat) (canJoin onSpeak : Bool) :
    List ChatPlayer :=
  w.chat.talkToChannel (w.chatPlayer player) (w.standing player) canJoin onSpeak channelId

/-- Talking changes no channel. -/
def request (w : PartyWorld) : ChatRequest → PartyWorld
  | .party operation => w.apply operation
  | .getChannelList player =>
    { w with chat := w.chat.getChannelList (w.chatPlayer player) (w.standing player) }
  | .playerOpenChannel player channelId canJoin onJoin =>
    { w with
      chat := (w.chat.addUserToChannel (w.chatPlayer player) (w.standing player) canJoin onJoin
        channelId).2 }
  | .playerCloseChannel player channelId canJoin =>
    { w with
      chat := (w.chat.removeUserFromChannel (w.chatPlayer player) (w.standing player) canJoin
        channelId).2 }
  | .playerCreatePrivateChannel player canJoin =>
    { w with
      chat := w.chat.playerCreatePrivateChannel (w.chatPlayer player) (w.standing player) canJoin }
  | .playerChannelInvite player invitePlayer =>
    { w with
      chat := w.chat.playerChannelInvite (w.chatPlayer player) (w.chatPlayer invitePlayer) }
  | .playerChannelExclude player excludePlayer =>
    { w with
      chat := w.chat.playerChannelExclude (w.chatPlayer player) (w.chatPlayer excludePlayer) }
  | .talkToChannel _ _ _ _ => w
  | .connect player =>
    { w with chat := w.chat.removeUserFromAllChannels (w.chatPlayer player) }

/-- No parties, and no party channels. -/
def chatSystem : Run.System PartyWorld ChatRequest where
  init w := system.init w ∧ w.chat.partyChannels = []
  step w request w' :=
    (∀ operation, request = .party operation → w.Allocates operation) ∧ w' = w.request request

/-- Whoever is taken out of a party is no user of its channel, but for the player who logs out. -/
def Unheard (w : PartyWorld) : ChatRequest → Prop
  | .party operation =>
    w.Checked operation ∧
      ∀ P u, w.chat.PartyUser P u → w.Takes P u.id operation → operation = .logout u.id
  | _ => True

/-- The users of the channel of a party are in the party. -/
structure Confined (w : PartyWorld) : Prop where
  linked : w.Linked w.invitePartyList
  users : ∀ P u, w.chat.PartyUser P u → w.party u.id = some P

/-- Only the chat changes. -/
theorem Confined.of_chat {chat : Chat} (h : w.Confined)
    (husers : ∀ P u, chat.PartyUser P u → w.chat.PartyUser P u ∨ w.party u.id = some P) :
    Confined { w with chat := chat } where
  linked := ⟨h.linked.party_iff, h.linked.nodup, h.linked.invited_iff, h.linked.invitees_nodup,
    h.linked.invited_nodup, h.linked.outside⟩
  users P u hu := (husers P u hu).elim (h.users P u) id

theorem Confined.apply (h : w.Confined) {operation : Operation}
    (hallocates : w.Allocates operation) (hunheard : w.Unheard (.party operation)) :
    (w.apply operation).Confined := by
  obtain ⟨hchecked, hquiet⟩ := hunheard
  refine ⟨(h.linked.apply hallocates hchecked).1, fun P u hu => ?_⟩
  by_cases hlogout : ∃ player, operation = .logout player
  · obtain ⟨player, rfl⟩ := hlogout
    obtain ⟨guid, hchat⟩ := @logout_chat w player
    rw [show w.apply (.logout player) = w.logout player from rfl, hchat] at hu
    obtain ⟨hold, hne⟩ := hu.removeUserFromAllChannels
    refine h.linked.stays hchecked (h.users P u hold) fun htakes => hne ?_
    cases hquiet P u hold htakes
    rfl
  · rw [apply_chat fun player heq => hlogout ⟨player, heq⟩] at hu
    exact h.linked.stays hchecked (h.users P u hu) fun htakes =>
      hlogout ⟨u.id, hquiet P u hu htakes⟩

theorem Confined.request (h : w.Confined) {request : ChatRequest}
    (hallocates : ∀ operation, request = .party operation → w.Allocates operation)
    (hunheard : w.Unheard request) : (w.request request).Confined := by
  cases request with
  | party operation => exact h.apply (hallocates operation rfl) hunheard
  | getChannelList player => exact h.of_chat fun P u hu => .inl hu.getChannelList
  | playerOpenChannel player channelId canJoin onJoin =>
    refine h.of_chat fun P u hu => hu.addUserToChannel.imp_right fun hnew => ?_
    obtain ⟨hparty, rfl⟩ := hnew
    exact hparty
  | playerCloseChannel player channelId canJoin =>
    exact h.of_chat fun P u hu => .inl hu.removeUserFromChannel
  | playerCreatePrivateChannel player canJoin =>
    exact h.of_chat fun P u hu => .inl hu.playerCreatePrivateChannel
  | playerChannelInvite player invitePlayer =>
    exact h.of_chat fun P u hu => .inl hu.playerChannelInvite
  | playerChannelExclude player excludePlayer =>
    exact h.of_chat fun P u hu => .inl hu.playerChannelExclude
  | talkToChannel player channelId canJoin onSpeak => exact h
  | connect player => exact h.of_chat fun P u hu => .inl hu.removeUserFromAllChannels.1

theorem confined_of_reachableBy (h : Run.ReachableBy chatSystem Unheard w) : w.Confined := by
  refine h.invariant (I := Confined) (fun w hinit => ?_)
    fun w request w' hconfined hunheard hstep => ?_
  · obtain ⟨hparties, hchannels⟩ := hinit
    refine ⟨linked_of_reachableBy (.init hparties), fun P u hu => ?_⟩
    obtain ⟨channel, hchannel, -⟩ := hu
    rw [hchannels] at hchannel
    cases hchannel
  · obtain ⟨hallocates, rfl⟩ := hstep
    exact hconfined.request hallocates hunheard

theorem Confined.heard {canJoin onSpeak : Bool} (h : w.Confined) {u : ChatPlayer}
    (hP : w.party player = some P)
    (hu : u ∈ w.talkToChannel player CHANNEL_PARTY canJoin onSpeak) : w.party u.id = some P := by
  unfold PartyWorld.talkToChannel Chat.talkToChannel at hu
  cases hget : w.chat.getChannel (w.chatPlayer player) (w.standing player) canJoin
    CHANNEL_PARTY with
  | none =>
    rw [hget] at hu
    cases hu
  | some ref =>
    obtain ⟨Q, rfl, hparty⟩ := Chat.getChannel_party hget
    have hQ : Q = P := Option.some.inj (hparty.symm.trans hP)
    rw [hget] at hu
    cases hchannel : w.chat.channel (.partyChannel Q) with
    | none =>
      simp only [hchannel] at hu
      cases hu
    | some found =>
      simp only [hchannel] at hu
      split_ifs at hu
      · exact hQ ▸ h.users Q u (Chat.partyUser_of_channel hchannel hu)
      · cases hu

/-- The users of the channel of a party, and those who get what is said there, are its leader or
one of its members. -/
theorem party_channel_confined (h : Run.ReachableBy chatSystem Unheard w) :
    (∀ P u, w.chat.PartyUser P u → u.id ∈ players (w.parties P)) ∧
      ∀ player P canJoin onSpeak, w.party player = some P →
        ∀ u ∈ w.talkToChannel player CHANNEL_PARTY canJoin onSpeak,
          u.id ∈ players (w.parties P) := by
  have hconfined := confined_of_reachableBy h
  have hmember := hconfined.linked.party_iff
  exact ⟨fun P u hu => (hmember u.id P).mp (hconfined.users P u hu),
    fun player P canJoin onSpeak hP u hu => (hmember u.id P).mp (hconfined.heard hP hu)⟩

theorem request_reachableBy {cond : PartyWorld → ChatRequest → Prop}
    (h : Run.ReachableBy chatSystem cond w) (request : ChatRequest) (hcond : cond w request)
    (hallocates : ∀ operation, request = .party operation → w.Allocates operation) :
    Run.ReachableBy chatSystem cond (w.request request) :=
  h.step hcond ⟨hallocates, rfl⟩

/-- A command that is always allowed, while no party channel is there. -/
theorem command_reachableBy (h : Run.ReachableBy chatSystem Unheard w) (operation : Operation)
    (hchecked : w.Checked operation) (hallocates : w.Allocates operation)
    (hchannels : w.chat.partyChannels = []) :
    Run.ReachableBy chatSystem Unheard (w.apply operation) := by
  refine request_reachableBy h (.party operation) ⟨hchecked, fun P u hu => ?_⟩ fun _ heq => ?_
  · obtain ⟨channel, hchannel, -⟩ := hu
    rw [hchannels] at hchannel
    cases hchannel
  · cases heq
    exact hallocates

/-- A party of three, two of whom have the party channel open. -/
def gathered : PartyWorld :=
  [ChatRequest.party (.playerInviteToParty 1 2 0), .party (.playerJoinParty 2 1),
    .party (.playerInviteToParty 1 3 1), .party (.playerJoinParty 3 1), .getChannelList 1,
    .playerOpenChannel 1 CHANNEL_PARTY true true,
    .playerOpenChannel 2 CHANNEL_PARTY true true].foldl request noParties

theorem gathered_reachableBy : Run.ReachableBy chatSystem Unheard gathered := by
  have hnobody : Run.ReachableBy chatSystem Unheard noParties :=
    .init ⟨⟨fun _ => rfl, fun _ => rfl, fun _ => rfl⟩, rfl⟩
  have hinvited := command_reachableBy hnobody (.playerInviteToParty 1 2 0) trivial rfl rfl
  have hjoined := command_reachableBy hinvited (.playerJoinParty 2 1) trivial trivial rfl
  have hagain := command_reachableBy hjoined (.playerInviteToParty 1 3 1) trivial rfl rfl
  have hparty := command_reachableBy hagain (.playerJoinParty 3 1) trivial trivial rfl
  have hlist := request_reachableBy hparty (.getChannelList 1) trivial nofun
  have hopen :=
    request_reachableBy hlist (.playerOpenChannel 1 CHANNEL_PARTY true true) trivial nofun
  exact request_reachableBy hopen (.playerOpenChannel 2 CHANNEL_PARTY true true) trivial nofun

theorem party_channel_confined_gathered :
    (∀ P u, gathered.chat.PartyUser P u → u.id ∈ players (gathered.parties P)) ∧
      ∀ player P canJoin onSpeak, gathered.party player = some P →
        ∀ u ∈ gathered.talkToChannel player CHANNEL_PARTY canJoin onSpeak,
          u.id ∈ players (gathered.parties P) :=
  party_channel_confined gathered_reachableBy

/-- A player leaves the party of three, stays on its channel, and gets what the leader says. -/
theorem party_channel_overheard :
    (¬ ∀ w, Run.Reachable chatSystem w → ∀ P u, w.chat.PartyUser P u →
      u.id ∈ players (w.parties P)) ∧
    ¬ ∀ w, Run.Reachable chatSystem w → ∀ player P canJoin onSpeak, w.party player = some P →
      ∀ u ∈ w.talkToChannel player CHANNEL_PARTY canJoin onSpeak,
        u.id ∈ players (w.parties P) := by
  have hleft : Run.Reachable chatSystem (gathered.apply (.playerLeaveParty 2 false)) :=
    request_reachableBy gathered_reachableBy.reachable (.party (.playerLeaveParty 2 false)) trivial
      fun _ heq => by cases heq; trivial
  refine ⟨fun h => ?_, fun h => ?_⟩
  · have huser := h _ hleft 0 ⟨2, 2⟩ ⟨_, List.mem_singleton_self _, List.mem_cons_self⟩
    exact absurd huser (by decide)
  · have hheard := h _ hleft 1 0 true true rfl ⟨2, 2⟩ (by decide)
    exact absurd hheard (by decide)

end PartyWorld

end Eloth
