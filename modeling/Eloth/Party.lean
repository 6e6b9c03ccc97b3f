import Mathlib.Data.List.Count
import Mathlib.Logic.Function.Basic
import Eloth.Chat
import Eloth.Lib.Run

/-!
# Parties

The party and the invitations of each player, and the members and invited players of each party. The
scripts that are asked before a party changes let everything happen.
-/

namespace Eloth

/-- The address of a party; a new one may have the address of one that is gone. -/
abbrev PartyId := Nat

structure Party where
  leader : Nat
  memberList : List Nat := []
  inviteList : List Nat := []

def Party.empty (party : Party) : Bool := party.memberList.isEmpty && party.inviteList.isEmpty

/-- What the chat asks of a player besides the party. -/
structure PartyProfile where
  guid : Nat
  guild : Option Nat
  isPremium : Bool

/-- Players are told apart by their ids. -/
structure PartyWorld where
  party : Nat → Option PartyId
  invitePartyList : Nat → List PartyId
  parties : PartyId → Option Party
  profile : Nat → PartyProfile
  chat : Chat

namespace PartyWorld

variable (w : PartyWorld)

/-! ## Players -/

def chatPlayer (x : Nat) : ChatPlayer := ⟨x, (w.profile x).guid⟩

def standing (x : Nat) : Standing :=
  ⟨(w.profile x).guild, w.party x, (w.profile x).isPremium⟩

def setParty (x : Nat) (party : Option PartyId) : PartyWorld :=
  { w with party := Function.update w.party x party }

/-- `Player::sendClosePrivate`. -/
def sendClosePrivate (x : Nat) (channelId : Nat) : PartyWorld :=
  if channelId = CHANNEL_GUILD ∨ channelId = CHANNEL_PARTY then
    { w with
      chat := (w.chat.removeUserFromChannel (w.chatPlayer x) (w.standing x) true channelId).2 }
  else w

def isInviting (x y : Nat) : Bool :=
  match (w.party x).bind w.parties with
  | some party => party.leader = x && y ∈ party.inviteList
  | none => false

def addPartyInvitation (x : Nat) (P : PartyId) : PartyWorld :=
  if P ∈ w.invitePartyList x then w
  else
    { w with
      invitePartyList := Function.update w.invitePartyList x (P :: w.invitePartyList x) }

def removePartyInvitation (x : Nat) (P : PartyId) : PartyWorld :=
  { w with
    invitePartyList :=
      Function.update w.invitePartyList x ((w.invitePartyList x).filter fun Q => Q ≠ P) }

/-! ## Parties -/

def setPartyAt (P : PartyId) (party : Party) : PartyWorld :=
  { w with parties := Function.update w.parties P (some party) }

/-- `new Party(leader)`. -/
def newParty (leader : Nat) (P : PartyId) : PartyWorld :=
  (w.setPartyAt P { leader := leader }).setParty leader (some P)

def disband (P : PartyId) : PartyWorld :=
  match w.parties P with
  | none => w
  | some party =>
    let w := (w.setParty party.leader none).sendClosePrivate party.leader CHANNEL_PARTY
    let w := party.inviteList.foldl (fun w invitee => w.removePartyInvitation invitee P) w
    let w := party.memberList.foldl
      (fun w member => (w.setParty member none).sendClosePrivate member CHANNEL_PARTY) w
    { w with parties := Function.update w.parties P none }

def passPartyLeadership (P : PartyId) (player : Nat) : PartyWorld :=
  match w.parties P with
  | none => w
  | some party =>
    if party.leader = player ∨ w.party player ≠ some P then w
    else
      w.setPartyAt P
        { party with
          leader := player, memberList := party.leader :: party.memberList.erase player }

/-- The part of `leaveParty` after the leadership has been passed. -/
def departParty (P : PartyId) (player : Nat) (missingLeader : Bool) : PartyWorld :=
  match w.parties P with
  | none => w
  | some party =>
    let party := { party with memberList := party.memberList.erase player }
    let w := ((w.setPartyAt P party).setParty player none).sendClosePrivate player CHANNEL_PARTY
    if missingLeader || party.empty then w.disband P else w

def leaveParty (P : PartyId) (player : Nat) : PartyWorld :=
  match w.parties P with
  | none => w
  | some party =>
    if w.party player ≠ some P ∧ party.leader ≠ player then w
    else if party.leader = player then
      match party.memberList with
      | [] => w.departParty P player true
      | heir :: others =>
        if others.isEmpty && party.inviteList.isEmpty then w.departParty P player true
        else (w.passPartyLeadership P heir).departParty P player false
    else w.departParty P player false

def joinParty (P : PartyId) (player : Nat) : PartyWorld :=
  match w.parties P with
  | none => w
  | some party =>
    if player ∈ party.inviteList then
      let w := w.setPartyAt P
        { party with
          memberList := party.memberList ++ [player], inviteList := party.inviteList.erase player }
      (w.setParty player (some P)).removePartyInvitation player P
    else w

def removeInvite (P : PartyId) (player : Nat) (removeFromPlayer : Bool) : PartyWorld :=
  match w.parties P with
  | none => w
  | some party =>
    if player ∈ party.inviteList then
      let party := { party with inviteList := party.inviteList.erase player }
      let w := w.setPartyAt P party
      let w := if removeFromPlayer then w.removePartyInvitation player P else w
      if party.empty then w.disband P else w
    else w

def revokeInvitation (P : PartyId) (player : Nat) : PartyWorld := w.removeInvite P player true

def invitePlayer (P : PartyId) (player : Nat) : PartyWorld :=
  match w.parties P with
  | none => w
  | some party =>
    if player ∈ party.inviteList then w
    else
      (w.setPartyAt P { party with inviteList := party.inviteList ++ [player] }).addPartyInvitation
        player P

def clearPartyInvitations (player : Nat) : PartyWorld :=
  let w := (w.invitePartyList player).foldl (fun w P => w.removeInvite P player false) w
  { w with invitePartyList := Function.update w.invitePartyList player [] }

/-! ## Commands of the players -/

/-- The address is the one that a new party gets. -/
def playerInviteToParty (player invitedPlayer : Nat) (address : PartyId) : PartyWorld :=
  if player = invitedPlayer ∨ w.isInviting invitedPlayer player ∨
      (w.party invitedPlayer).isSome then w
  else
    match w.party player with
    | none => (w.newParty player address).invitePlayer address invitedPlayer
    | some P =>
      if (w.parties P).any fun party => party.leader = player then w.invitePlayer P invitedPlayer
      else w

def playerJoinParty (player leader : Nat) : PartyWorld :=
  if !w.isInviting leader player then w
  else
    match w.party leader with
    | none => w
    | some P => if (w.party player).isSome then w else w.joinParty P player

def playerRevokePartyInvitation (player invitedPlayer : Nat) : PartyWorld :=
  match w.party player with
  | none => w
  | some P => if w.isInviting player invitedPlayer then w.revokeInvitation P invitedPlayer else w

def playerPassPartyLeadership (player newLeader : Nat) : PartyWorld :=
  match w.party player with
  | none => w
  | some P =>
    if (w.parties P).any (fun party => party.leader = player) ∧ newLeader ≠ player ∧
        w.party newLeader = some P then w.passPartyLeadership P newLeader
    else w

def playerLeaveParty (player : Nat) (infight : Bool) : PartyWorld :=
  match w.party player with
  | none => w
  | some P => if infight then w else w.leaveParty P player

/-- `Player::onRemoveCreature` for the player. -/
def logout (player : Nat) : PartyWorld :=
  let w := w.clearPartyInvitations player
  let w :=
    match w.party player with
    | none => w
    | some P => w.leaveParty P player
  { w with chat := w.chat.removeUserFromAllChannels (w.chatPlayer player) }

/-! ## Runs -/

inductive Operation where
  | playerInviteToParty (player invitedPlayer : Nat) (address : PartyId)
  | playerJoinParty (player leader : Nat)
  | playerRevokePartyInvitation (player invitedPlayer : Nat)
  | playerPassPartyLeadership (player newLeader : Nat)
  | playerLeaveParty (player : Nat) (infight : Bool)
  | logout (player : Nat)
  /-- `Party(player)` of a script. -/
  | create (player : Nat) (address : PartyId)
  | disband (P : PartyId)
  | setLeader (P : PartyId) (player : Nat)
  | addInvite (P : PartyId) (player : Nat)
  | removeInvite (P : PartyId) (player : Nat)
  | addMember (P : PartyId) (player : Nat)
  | removeMember (P : PartyId) (player : Nat)

def apply : Operation → PartyWorld
  | .playerInviteToParty player invitedPlayer address =>
    w.playerInviteToParty player invitedPlayer address
  | .playerJoinParty player leader => w.playerJoinParty player leader
  | .playerRevokePartyInvitation player invitedPlayer =>
    w.playerRevokePartyInvitation player invitedPlayer
  | .playerPassPartyLeadership player newLeader => w.playerPassPartyLeadership player newLeader
  | .playerLeaveParty player infight => w.playerLeaveParty player infight
  | .logout player => w.logout player
  | .create player address => if (w.party player).isSome then w else w.newParty player address
  | .disband P => w.disband P
  | .setLeader P player => w.passPartyLeadership P player
  | .addInvite P player => w.invitePlayer P player
  | .removeInvite P player => w.removeInvite P player true
  | .addMember P player => w.joinParty P player
  | .removeMember P player => w.leaveParty P player

/-- A new party gets the address of no other one. -/
def Allocates : Operation → Prop
  | .playerInviteToParty _ _ address | .create _ address => w.parties address = none
  | _ => True

/-- A script does what the commands see to: it invites nobody to the own party, and adds nobody who
is in a party. -/
def Checked : Operation → Prop
  | .addInvite P player => w.party player ≠ some P
  | .addMember P player =>
    ∀ party, w.parties P = some party → player ∈ party.inviteList → w.party player = none
  | _ => True

/-- No parties. -/
def system : Run.System PartyWorld Operation where
  init w := (∀ x, w.party x = none) ∧ (∀ x, w.invitePartyList x = []) ∧ ∀ P, w.parties P = none
  step w operation w' := w.Allocates operation ∧ w' = w.apply operation

/-- The parties of the players and the players of the parties agree, and invitations stand on both
sides. -/
structure Lawful (w : PartyWorld) : Prop where
  party_iff : ∀ x P, w.party x = some P ↔ ∃ party, w.parties P = some party ∧
    (party.leader = x ∨ party.memberList.count x = 1)
  leader_apart : ∀ P party, w.parties P = some party → party.leader ∉ party.memberList
  once : ∀ P party, w.parties P = some party → ∀ x, party.memberList.count x ≤ 1
  invited_iff : ∀ x P, P ∈ w.invitePartyList x ↔ ∃ party, w.parties P = some party ∧
    x ∈ party.inviteList
  invited_once : ∀ x P, (w.invitePartyList x).count P ≤ 1
  invitees_once : ∀ P party, w.parties P = some party → ∀ x, party.inviteList.count x ≤ 1

/-- Somebody besides the leader is in the party, or invited. -/
def Accompanied (party : Party) : Prop :=
  ∃ x, x ≠ party.leader ∧ (x ∈ party.memberList ∨ x ∈ party.inviteList)

/-! ## The players and the invited players of a party -/

/-- The leader and the members. -/
def players : Option Party → List Nat
  | some party => party.leader :: party.memberList
  | none => []

def invitees : Option Party → List Nat
  | some party => party.inviteList
  | none => []

/-- The lists of the parties agree with the pointers of the players and the given invitations. -/
structure Linked (w : PartyWorld) (invited : Nat → List PartyId) : Prop where
  party_iff : ∀ x P, w.party x = some P ↔ x ∈ players (w.parties P)
  nodup : ∀ P, (players (w.parties P)).Nodup
  invited_iff : ∀ x P, P ∈ invited x ↔ x ∈ invitees (w.parties P)
  invitees_nodup : ∀ P, (invitees (w.parties P)).Nodup
  invited_nodup : ∀ x, (invited x).Nodup
  outside : ∀ P, ∀ x ∈ invitees (w.parties P), x ∉ players (w.parties P)

/-- The opposite of `Party.empty`. -/
def Inhabited (party : Party) : Prop := party.memberList ≠ [] ∨ party.inviteList ≠ []

variable {w} {w' : PartyWorld} {P : PartyId} {party : Party} {x player : Nat}
  {invited invited' : Nat → List PartyId}

/-- One party changes. -/
theorem Linked.replace (h : w.Linked invited) (new : Option Party)
    (hparties : w'.parties = Function.update w.parties P new)
    (hparty : ∀ x Q, w'.party x = some Q ↔ if Q = P then x ∈ players new else w.party x = some Q)
    (hinvited : ∀ x Q, Q ∈ invited' x ↔ if Q = P then x ∈ invitees new else Q ∈ invited x)
    (hnodup : (players new).Nodup) (hinvitees : (invitees new).Nodup)
    (hinvitedNodup : ∀ x, (invited' x).Nodup) (hout : ∀ x ∈ invitees new, x ∉ players new) :
    w'.Linked invited' := by
  have hself : w'.parties P = new := by rw [hparties, Function.update_self]
  have hother : ∀ Q, Q ≠ P → w'.parties Q = w.parties Q := fun Q hQ => by
    rw [hparties, Function.update_of_ne hQ]
  refine ⟨fun x Q => ?_, fun Q => ?_, fun x Q => ?_, fun Q => ?_, hinvitedNodup, fun Q => ?_⟩
  · rw [hparty]
    split_ifs with hQ
    · rw [hQ, hself]
    · rw [hother Q hQ]
      exact h.party_iff x Q
  · by_cases hQ : Q = P
    · rwa [hQ, hself]
    · rw [hother Q hQ]
      exact h.nodup Q
  · rw [hinvited]
    split_ifs with hQ
    · rw [hQ, hself]
    · rw [hother Q hQ]
      exact h.invited_iff x Q
  · by_cases hQ : Q = P
    · rwa [hQ, hself]
    · rw [hother Q hQ]
      exact h.invitees_nodup Q
  · by_cases hQ : Q = P
    · rwa [hQ, hself]
    · rw [hother Q hQ]
      exact h.outside Q

/-! ## What the functions change -/

/-- The chat does not find the channel of a player without a party. -/
theorem sendClosePrivate_eq (h : w.party x = none) : w.sendClosePrivate x CHANNEL_PARTY = w := by
  have hchannel : w.chat.removeUserFromChannel (w.chatPlayer x) (w.standing x) true CHANNEL_PARTY =
      (false, w.chat) := by
    simp [Chat.removeUserFromChannel, Chat.getChannel, standing, h, CHANNEL_GUILD, CHANNEL_PARTY]
  rw [sendClosePrivate, if_pos (.inr rfl), hchannel]

theorem closeParty_eq :
    (w.setParty x none).sendClosePrivate x CHANNEL_PARTY = w.setParty x none := by
  have hnone : (w.setParty x none).party x = none := by simp [setParty]
  exact sendClosePrivate_eq hnone

theorem addPartyInvitation_eq (h : P ∉ w.invitePartyList x) :
    w.addPartyInvitation x P =
      { w with
        invitePartyList := Function.update w.invitePartyList x (P :: w.invitePartyList x) } :=
  if_neg h

theorem foldl_removePartyInvitation (l : List Nat) (w : PartyWorld) :
    l.foldl (fun w invitee => w.removePartyInvitation invitee P) w =
      { w with
        invitePartyList := fun x =>
          if x ∈ l then (w.invitePartyList x).filter fun Q => Q ≠ P else w.invitePartyList x } := by
  induction l generalizing w with
  | nil => rfl
  | cons y l ih =>
    rw [List.foldl_cons, ih]
    refine congrArg (fun list => { w with invitePartyList := list }) (funext fun x => ?_)
    unfold removePartyInvitation
    dsimp only
    by_cases hx : x = y
    · subst hx
      rw [if_pos List.mem_cons_self, Function.update_self, List.filter_filter]
      simp only [Bool.and_self, ite_self]
    · rw [Function.update_of_ne hx]
      simp only [List.mem_cons, or_iff_right hx]

theorem foldl_closeParty (l : List Nat) (w : PartyWorld) :
    l.foldl (fun w member => (w.setParty member none).sendClosePrivate member CHANNEL_PARTY) w =
      { w with party := fun x => if x ∈ l then none else w.party x } := by
  induction l generalizing w with
  | nil => rfl
  | cons y l ih =>
    rw [List.foldl_cons, ih, closeParty_eq]
    refine congrArg (fun party => { w with party := party }) (funext fun x => ?_)
    unfold setParty
    dsimp only
    by_cases hx : x = y
    · subst hx
      rw [if_pos List.mem_cons_self, Function.update_self, ite_self]
    · rw [Function.update_of_ne hx]
      simp only [List.mem_cons, or_iff_right hx]

theorem disband_eq (h : w.parties P = some party) :
    w.disband P =
      { w with
        party := fun x => if x ∈ party.leader :: party.memberList then none else w.party x
        invitePartyList := fun x =>
          if x ∈ party.inviteList then (w.invitePartyList x).filter fun Q => Q ≠ P
          else w.invitePartyList x
        parties := Function.update w.parties P none } := by
  unfold disband
  rw [h]
  dsimp only
  have hparty : (fun x => if x ∈ party.memberList then none
      else Function.update w.party party.leader none x) =
        fun x => if x ∈ party.leader :: party.memberList then none else w.party x := by
    funext x
    by_cases hx : x = party.leader
    · rw [hx, Function.update_self, ite_self, if_pos List.mem_cons_self]
    · rw [Function.update_of_ne hx]
      simp only [List.mem_cons, or_iff_right hx]
  rw [closeParty_eq, foldl_removePartyInvitation, foldl_closeParty, ← hparty]
  rfl

/-! ## One party changes -/

theorem Linked.mem_players (h : w.Linked invited) (hP : w.parties P = some party) :
    w.party x = some P ↔ x ∈ party.leader :: party.memberList := by
  rw [h.party_iff, hP]
  rfl

theorem Linked.mem_invitees (h : w.Linked invited) (hP : w.parties P = some party) :
    P ∈ invited x ↔ x ∈ party.inviteList := by
  rw [h.invited_iff, hP]
  rfl

theorem Linked.newParty (h : w.Linked invited) (hP : w.parties P = none) (hx : w.party x = none) :
    (w.newParty x P).Linked invited := by
  refine h.replace (some { leader := x }) rfl (fun y Q => ?_) (fun y Q => ?_)
    (List.nodup_singleton x) List.nodup_nil h.invited_nodup fun y hy => nomatch hy
  · change Function.update w.party x (some P) y = some Q ↔ _
    have hnone : w.party y ≠ some P := fun hy => by
      rw [h.party_iff, hP] at hy
      cases hy
    by_cases hy : y = x
    · subst hy
      rw [Function.update_self, hx]
      simp [players, eq_comm]
    · rw [Function.update_of_ne hy]
      split_ifs with hQ
      · subst hQ
        simp [players, hy, hnone]
      · rfl
  · have hnot : P ∉ invited y := fun hy => by
      rw [h.invited_iff, hP] at hy
      cases hy
    split_ifs with hQ
    · subst hQ
      simp [invitees, hnot]
    · rfl

theorem Linked.disband (h : w.Linked invited) (hP : w.parties P = some party) :
    (w.disband P).Linked fun y =>
      if y ∈ party.inviteList then (invited y).filter fun Q => Q ≠ P else invited y := by
  rw [disband_eq hP]
  refine h.replace none rfl (fun y Q => ?_) (fun y Q => ?_) List.nodup_nil List.nodup_nil
    (fun y => ?_) fun y hy => nomatch hy
  · dsimp only
    have hmem := h.mem_players hP (x := y)
    by_cases hy : y ∈ party.leader :: party.memberList
    · rw [if_pos hy, hmem.mpr hy]
      split_ifs with hQ
      · simp [players]
      · simp [Ne.symm hQ]
    · rw [if_neg hy]
      split_ifs with hQ
      · simp [players, hQ, hmem, hy]
      · rfl
  · have hmem := h.mem_invitees hP (x := y)
    by_cases hy : y ∈ party.inviteList
    · rw [if_pos hy]
      split_ifs with hQ
      · simp [invitees, hQ]
      · simp [hQ]
    · rw [if_neg hy]
      split_ifs with hQ
      · simp [invitees, hQ, hmem, hy]
      · rfl
  · split_ifs
    · exact (h.invited_nodup y).filter _
    · exact h.invited_nodup y

/-- A player is invited. -/
theorem Linked.invite (h : w.Linked w.invitePartyList) (hP : w.parties P = some party)
    (hout : w.party player ≠ some P) (hnew : player ∉ party.inviteList) :
    ((w.setPartyAt P { party with inviteList := party.inviteList ++ [player] }).addPartyInvitation
      player P).Linked (Function.update w.invitePartyList player (P :: w.invitePartyList player)) ∧
    ((w.setPartyAt P { party with inviteList := party.inviteList ++ [player] }).addPartyInvitation
      player P).invitePartyList =
        Function.update w.invitePartyList player (P :: w.invitePartyList player) := by
  have hinvited : P ∉ w.invitePartyList player := (h.mem_invitees hP).not.mpr hnew
  have hnodup := h.nodup P
  have hinvitees := h.invitees_nodup P
  have houtside := h.outside P
  rw [hP] at hnodup hinvitees houtside
  rw [addPartyInvitation_eq (w := w.setPartyAt P _) hinvited]
  refine ⟨h.replace (some { party with inviteList := party.inviteList ++ [player] }) rfl
    (fun y Q => ?_) (fun y Q => ?_) hnodup ?_ (fun y => ?_) (fun y hy => ?_), rfl⟩
  · have hmem := h.mem_players hP (x := y)
    split_ifs with hQ
    · rw [hQ]
      exact hmem
    · rfl
  · change Q ∈ Function.update w.invitePartyList player (P :: w.invitePartyList player) y ↔ _
    by_cases hy : y = player
    · subst hy
      rw [Function.update_self, List.mem_cons]
      split_ifs with hQ
      · simp [invitees, hQ]
      · simp [hQ]
    · rw [Function.update_of_ne hy]
      split_ifs with hQ
      · rw [hQ, h.mem_invitees hP]
        simp [invitees, hy]
      · rfl
  · exact List.nodup_append.mpr ⟨hinvitees, List.nodup_singleton _, fun y hy z hz =>
      fun heq => hnew (by rwa [← List.mem_singleton.mp hz, ← heq])⟩
  · by_cases hy : y = player
    · subst hy
      rw [Function.update_self]
      exact List.nodup_cons.mpr ⟨hinvited, h.invited_nodup y⟩
    · rw [Function.update_of_ne hy]
      exact h.invited_nodup y
  · rcases List.mem_append.mp hy with hold | hlast
    · exact houtside y hold
    · rw [List.mem_singleton.mp hlast]
      exact (h.mem_players hP).not.mp hout

/-- The invitation of a player is taken back or used up. -/
theorem Linked.mem_uninvite (h : w.Linked invited) (hP : w.parties P = some party) {Q : PartyId} :
    Q ∈ Function.update invited player ((invited player).filter fun Q => Q ≠ P) x ↔
      if Q = P then x ∈ party.inviteList.erase player else Q ∈ invited x := by
  have hnodup : party.inviteList.Nodup := by
    have hinvitees := h.invitees_nodup P
    rwa [hP] at hinvitees
  have hmem := h.mem_invitees hP (x := x)
  by_cases hx : x = player
  · subst hx
    rw [Function.update_self]
    split_ifs with hQ
    · simp [hQ, hnodup.not_mem_erase]
    · simp [hQ]
  · rw [Function.update_of_ne hx]
    split_ifs with hQ
    · rw [hQ, hmem, List.mem_erase_of_ne hx]
    · rfl

theorem Linked.nodup_uninvite (h : w.Linked invited) :
    (Function.update invited player ((invited player).filter fun Q => Q ≠ P) x).Nodup := by
  by_cases hx : x = player
  · rw [hx, Function.update_self]
    exact (h.invited_nodup player).filter _
  · rw [Function.update_of_ne hx]
    exact h.invited_nodup x

theorem Linked.eraseInvite (h : w.Linked invited) (w' : PartyWorld) (hP : w.parties P = some party)
    (hparties : w'.parties = Function.update w.parties P
      (some { party with inviteList := party.inviteList.erase player }))
    (hparty : w'.party = w.party) :
    w'.Linked (Function.update invited player ((invited player).filter fun Q => Q ≠ P)) := by
  have hnodup := h.nodup P
  have hinvitees := h.invitees_nodup P
  have houtside := h.outside P
  rw [hP] at hnodup hinvitees houtside
  refine h.replace _ hparties (fun y Q => ?_) (fun y Q => h.mem_uninvite hP) hnodup
    (hinvitees.erase player) (fun y => h.nodup_uninvite) fun y hy =>
      houtside y (List.mem_of_mem_erase hy)
  have hmem := h.mem_players hP (x := y)
  rw [hparty]
  split_ifs with hQ
  · rw [hQ]
    exact hmem
  · rfl

theorem Linked.join (h : w.Linked invited) (w' : PartyWorld) (hP : w.parties P = some party)
    (hin : player ∈ party.inviteList) (hnone : w.party player = none)
    (hparties : w'.parties = Function.update w.parties P
      (some { party with
        memberList := party.memberList ++ [player], inviteList := party.inviteList.erase player }))
    (hparty : w'.party = Function.update w.party player (some P)) :
    w'.Linked (Function.update invited player ((invited player).filter fun Q => Q ≠ P)) := by
  have hnodup := h.nodup P
  have hinvitees := h.invitees_nodup P
  have houtside := h.outside P
  rw [hP] at hnodup hinvitees houtside
  have hnew : player ∉ party.leader :: party.memberList := houtside player hin
  refine h.replace _ hparties (fun y Q => ?_) (fun y Q => h.mem_uninvite hP) ?_
    (hinvitees.erase player) (fun y => h.nodup_uninvite) fun y hy hplayer => ?_
  · have hmem := h.mem_players hP (x := y)
    rw [hparty]
    by_cases hy : y = player
    · subst hy
      rw [Function.update_self, hnone]
      simp [players, eq_comm]
    · rw [Function.update_of_ne hy]
      split_ifs with hQ
      · rw [hQ, hmem]
        simp [players, hy]
      · rfl
  · exact List.nodup_append.mpr ⟨hnodup, List.nodup_singleton _, fun y hy z hz heq =>
      hnew (by rwa [← List.mem_singleton.mp hz, ← heq])⟩
  · obtain ⟨hne, hold⟩ := (List.Nodup.mem_erase_iff hinvitees).mp hy
    have happend : y ∈ (party.leader :: party.memberList) ++ [player] := hplayer
    rcases List.mem_append.mp happend with hbefore | hlast
    · exact houtside y hold hbefore
    · exact hne (List.mem_singleton.mp hlast)

/-- A member becomes the leader, and the leader the first member. -/
theorem Linked.pass (h : w.Linked invited) (hP : w.parties P = some party)
    (hne : party.leader ≠ player) (hmember : w.party player = some P) :
    (w.setPartyAt P
      { party with
        leader := player
        memberList := party.leader :: party.memberList.erase player }).Linked invited := by
  have hnodup := h.nodup P
  have hinvitees := h.invitees_nodup P
  have houtside := h.outside P
  rw [hP] at hnodup hinvitees houtside
  obtain ⟨hleader, hmembers⟩ := List.nodup_cons.mp hnodup
  have hin : player ∈ party.memberList :=
    ((List.mem_cons.mp ((h.mem_players hP).mp hmember)).resolve_left (Ne.symm hne))
  have hperm : (player :: party.leader :: party.memberList.erase player).Perm
      (party.leader :: party.memberList) :=
    (List.Perm.swap party.leader player _).trans
      ((List.perm_cons_erase hin).symm.cons party.leader)
  refine h.replace _ rfl (fun y Q => ?_) (fun y Q => ?_) (hperm.nodup_iff.mpr hnodup) hinvitees
    h.invited_nodup fun y hy hplayer => houtside y hy (hperm.mem_iff.mp hplayer)
  · have hmem := h.mem_players hP (x := y)
    change w.party y = some Q ↔ _
    split_ifs with hQ
    · rw [hQ, hmem]
      exact hperm.mem_iff.symm
    · rfl
  · have hmem := h.mem_invitees hP (x := y)
    split_ifs with hQ
    · rw [hQ, hmem]
      rfl
    · rfl

/-- A member who is not the leader leaves. -/
theorem Linked.leave (h : w.Linked invited) (hP : w.parties P = some party)
    (hin : player ∈ party.memberList) :
    ((w.setPartyAt P
      { party with memberList := party.memberList.erase player }).setParty player none).Linked
        invited := by
  have hnodup := h.nodup P
  have hinvitees := h.invitees_nodup P
  have houtside := h.outside P
  rw [hP] at hnodup hinvitees houtside
  obtain ⟨hleader, hmembers⟩ := List.nodup_cons.mp hnodup
  have hne : party.leader ≠ player := fun heq => hleader (heq ▸ hin)
  have hplayer := (h.mem_players hP).mpr (List.mem_cons_of_mem _ hin)
  have hsub : (party.leader :: party.memberList.erase player).Sublist
      (party.leader :: party.memberList) := (List.erase_sublist ..).cons_cons _
  refine h.replace _ rfl (fun y Q => ?_) (fun y Q => ?_) (hnodup.sublist hsub) hinvitees
    h.invited_nodup fun y hy hstill => houtside y hy (hsub.subset hstill)
  · have hmem := h.mem_players hP (x := y)
    change Function.update w.party player none y = some Q ↔ _
    by_cases hy : y = player
    · subst hy
      rw [Function.update_self, hplayer]
      simp [players, Ne.symm hne, hmembers.not_mem_erase, eq_comm]
    · rw [Function.update_of_ne hy]
      split_ifs with hQ
      · rw [hQ, hmem]
        simp [players, List.mem_erase_of_ne hy]
      · rfl
  · have hmem := h.mem_invitees hP (x := y)
    split_ifs with hQ
    · rw [hQ, hmem]
      rfl
    · rfl

/-! ## The functions of a party -/

/-- Every party but one is inhabited or as it was before. -/
def OthersInhabited (w : PartyWorld) (old : PartyId → Option Party) (P : PartyId) : Prop :=
  ∀ Q, Q ≠ P → ∀ party, w.parties Q = some party → Inhabited party ∨ old Q = some party

/-- The lists and the pointers agree, and every party is inhabited or as it was before. -/
structure Kept (w : PartyWorld) (old : PartyId → Option Party) (invited : Nat → List PartyId) :
    Prop where
  linked : w.Linked invited
  inhabited : ∀ P party, w.parties P = some party → Inhabited party ∨ old P = some party

variable {old : PartyId → Option Party}

theorem Kept.others (h : w.Kept old invited) (P : PartyId) : w.OthersInhabited old P :=
  fun Q _ party hQ => h.inhabited Q party hQ

theorem OthersInhabited.update {new : Option Party} (h : w.OthersInhabited old P)
    (hparties : w'.parties = Function.update w.parties P new) : w'.OthersInhabited old P := by
  intro Q hQ party hparty
  rw [hparties, Function.update_of_ne hQ] at hparty
  exact h Q hQ party hparty

theorem OthersInhabited.kept (h : w.OthersInhabited old P) (hlinked : w.Linked invited)
    (hP : ∀ party, w.parties P = some party → Inhabited party) : w.Kept old invited := by
  refine ⟨hlinked, fun Q party hparty => ?_⟩
  by_cases hQ : Q = P
  · subst hQ
    exact .inl (hP party hparty)
  · exact h Q hQ party hparty

theorem Kept.disband (h : w.Kept old w.invitePartyList) :
    (w.disband P).Kept old (w.disband P).invitePartyList := by
  cases hP : w.parties P with
  | none =>
    rw [PartyWorld.disband, hP]
    exact h
  | some party =>
    have heq := disband_eq hP
    have hparties : (w.disband P).parties = Function.update w.parties P none := by rw [heq]
    have hlists : (w.disband P).invitePartyList = fun y =>
        if y ∈ party.inviteList then (w.invitePartyList y).filter fun Q => Q ≠ P
        else w.invitePartyList y := by rw [heq]
    rw [hlists]
    refine ((h.others P).update hparties).kept (h.linked.disband hP) fun party hparty => ?_
    rw [hparties, Function.update_self] at hparty
    cases hparty

/-- A party that has become empty is disbanded. -/
theorem Linked.settle (h : w.Linked invited) (hP : w.parties P = some party)
    (hothers : w.OthersInhabited old P) :
    (if party.empty then w.disband P else w).Kept old invited ∧
      (if party.empty then w.disband P else w).invitePartyList = w.invitePartyList := by
  split_ifs with hempty
  · have hinvitees : party.inviteList = [] := by
      rw [Party.empty, Bool.and_eq_true] at hempty
      exact List.isEmpty_iff.mp hempty.2
    have heq := disband_eq hP
    have hparties : (w.disband P).parties = Function.update w.parties P none := by rw [heq]
    have hlinked := h.disband hP
    simp only [hinvitees, List.not_mem_nil, if_false] at hlinked
    refine ⟨(hothers.update hparties).kept hlinked fun party hparty => ?_, ?_⟩
    · rw [hparties, Function.update_self] at hparty
      cases hparty
    · rw [heq]
      simp only [hinvitees, List.not_mem_nil, if_false]
  · refine ⟨hothers.kept h fun party' hparty => ?_, rfl⟩
    cases hP.symm.trans hparty
    rw [Party.empty, Bool.and_eq_true, not_and_or, List.isEmpty_iff, List.isEmpty_iff] at hempty
    exact hempty

theorem Kept.removeInvite {removeFromPlayer : Bool} (h : w.Kept old invited)
    (hflag : removeFromPlayer = true → invited = w.invitePartyList) :
    (w.removeInvite P player removeFromPlayer).Kept old
        (Function.update invited player ((invited player).filter fun Q => Q ≠ P)) ∧
      (w.removeInvite P player removeFromPlayer).invitePartyList =
        if removeFromPlayer then
          Function.update w.invitePartyList player
            ((w.invitePartyList player).filter fun Q => Q ≠ P)
        else w.invitePartyList := by
  have hsame : P ∉ invited player → (w.Kept old
      (Function.update invited player ((invited player).filter fun Q => Q ≠ P)) ∧
      w.invitePartyList = if removeFromPlayer then
        Function.update w.invitePartyList player
          ((w.invitePartyList player).filter fun Q => Q ≠ P)
        else w.invitePartyList) := by
    intro hnot
    have hfilter : (invited player).filter (fun Q => Q ≠ P) = invited player :=
      List.filter_eq_self.mpr fun Q hQ => decide_eq_true fun heq => hnot (heq ▸ hQ)
    rw [hfilter, Function.update_eq_self]
    refine ⟨h, ?_⟩
    split_ifs with hremove
    · rw [← hflag hremove, hfilter, Function.update_eq_self]
    · rfl
  unfold PartyWorld.removeInvite
  cases hP : w.parties P with
  | none =>
    refine hsame fun hmem => ?_
    rw [h.linked.invited_iff, hP] at hmem
    cases hmem
  | some party =>
    dsimp only
    by_cases hin : player ∈ party.inviteList
    · rw [if_pos hin]
      cases removeFromPlayer with
      | false =>
        have hlinked := h.linked.eraseInvite
          (w.setPartyAt P { party with inviteList := party.inviteList.erase player }) hP rfl rfl
        exact hlinked.settle (Function.update_self ..) ((h.others P).update rfl)
      | true =>
        have hlinked := h.linked.eraseInvite
          ((w.setPartyAt P { party with inviteList := party.inviteList.erase player
            }).removePartyInvitation player P) hP rfl rfl
        exact hlinked.settle (Function.update_self ..) ((h.others P).update rfl)
    · rw [if_neg hin]
      exact hsame ((h.linked.mem_invitees hP).not.mpr hin)

/-- One round of the loop over the invitations of a player, whose own list stays as it is. -/
theorem Kept.removeInvite_head {l : List PartyId}
    (h : w.Kept old (Function.update invited player (P :: l))) :
    P ∉ l ∧ (w.removeInvite P player false).Kept old (Function.update invited player l) ∧
      (w.removeInvite P player false).invitePartyList = w.invitePartyList := by
  have hnodup : (P :: l).Nodup := by
    have hlist := h.linked.invited_nodup player
    rwa [Function.update_self] at hlist
  obtain ⟨hhead, -⟩ := List.nodup_cons.mp hnodup
  have hfilter : (P :: l).filter (fun Q => Q ≠ P) = l := by
    rw [List.filter_cons_of_neg (by simp)]
    exact List.filter_eq_self.mpr fun Q hQ => decide_eq_true fun heq => hhead (heq ▸ hQ)
  obtain ⟨hkept, hlists⟩ := @Kept.removeInvite w P player _ old false h fun hflag => nomatch hflag
  rw [Function.update_self, hfilter, Function.update_idem] at hkept
  exact ⟨hhead, hkept, hlists⟩

theorem Kept.foldl_removeInvite (l : List PartyId)
    (h : w.Kept old (Function.update invited player l)) :
    (l.foldl (fun w P => w.removeInvite P player false) w).Kept old
        (Function.update invited player []) ∧
      (l.foldl (fun w P => w.removeInvite P player false) w).invitePartyList =
        w.invitePartyList := by
  induction l generalizing w with
  | nil => exact ⟨h, rfl⟩
  | cons P l ih =>
    obtain ⟨-, hkept, hlists⟩ := h.removeInvite_head
    obtain ⟨hrest, hsame⟩ := ih hkept
    exact ⟨hrest, hsame.trans hlists⟩

theorem Kept.clearPartyInvitations (h : w.Kept old w.invitePartyList) :
    (w.clearPartyInvitations player).Kept old (w.clearPartyInvitations player).invitePartyList := by
  have hstart :
      w.Kept old (Function.update w.invitePartyList player (w.invitePartyList player)) := by
    rwa [Function.update_eq_self]
  obtain ⟨hkept, hlists⟩ := hstart.foldl_removeInvite (w.invitePartyList player)
  unfold PartyWorld.clearPartyInvitations
  dsimp only
  rw [hlists]
  exact ⟨⟨hkept.linked.party_iff, hkept.linked.nodup, hkept.linked.invited_iff,
    hkept.linked.invitees_nodup, hkept.linked.invited_nodup, hkept.linked.outside⟩,
    hkept.inhabited⟩

/-- An invitation keeps everything, also when it is the first one of a party. -/
theorem Linked.invitePlayer (h : w.Linked w.invitePartyList) (hP : w.parties P = some party)
    (hothers : w.OthersInhabited old P) (hout : w.party player ≠ some P) :
    (w.invitePlayer P player).Kept old (w.invitePlayer P player).invitePartyList := by
  unfold PartyWorld.invitePlayer
  rw [hP]
  dsimp only
  split_ifs with hin
  · refine hothers.kept h fun party' hparty => ?_
    cases hP.symm.trans hparty
    exact .inr (List.ne_nil_of_mem hin)
  · obtain ⟨hlinked, hlists⟩ := h.invite hP hout hin
    have hnot : P ∉ w.invitePartyList player := (h.mem_invitees hP).not.mpr hin
    have hparties : ((w.setPartyAt P { party with inviteList := party.inviteList ++ [player]
        }).addPartyInvitation player P).parties = Function.update w.parties P
          (some { party with inviteList := party.inviteList ++ [player] }) := by
      rw [addPartyInvitation_eq (w := w.setPartyAt P _) hnot]
      rfl
    rw [hlists]
    refine (hothers.update hparties).kept hlinked fun party' hparty => ?_
    rw [hparties, Function.update_self] at hparty
    cases hparty
    exact .inr (List.append_ne_nil_of_right_ne_nil _ (List.cons_ne_nil _ _))

theorem Kept.invitePlayer (h : w.Kept old w.invitePartyList) (hout : w.party player ≠ some P) :
    (w.invitePlayer P player).Kept old (w.invitePlayer P player).invitePartyList := by
  cases hP : w.parties P with
  | none =>
    rw [PartyWorld.invitePlayer, hP]
    exact h
  | some party => exact h.linked.invitePlayer hP (h.others P) hout

theorem Kept.joinParty (h : w.Kept old w.invitePartyList)
    (hnone : ∀ party, w.parties P = some party → player ∈ party.inviteList →
      w.party player = none) :
    (w.joinParty P player).Kept old (w.joinParty P player).invitePartyList := by
  unfold PartyWorld.joinParty
  cases hP : w.parties P with
  | none => exact h
  | some party =>
    dsimp only
    split_ifs with hin
    · have hlinked := h.linked.join
        (((w.setPartyAt P { party with
          memberList := party.memberList ++ [player]
          inviteList := party.inviteList.erase player }).setParty player
            (some P)).removePartyInvitation player P) hP hin (hnone party hP hin) rfl rfl
      refine ((h.others P).update rfl).kept hlinked fun party' hparty => ?_
      cases (Function.update_self P _ w.parties).symm.trans hparty
      exact .inl (List.append_ne_nil_of_right_ne_nil _ (List.cons_ne_nil _ _))
    · exact h

theorem Kept.passPartyLeadership (h : w.Kept old w.invitePartyList) :
    (w.passPartyLeadership P player).Kept old (w.passPartyLeadership P player).invitePartyList := by
  unfold PartyWorld.passPartyLeadership
  cases hP : w.parties P with
  | none => exact h
  | some party =>
    dsimp only
    split_ifs with hguard
    · exact h
    · obtain ⟨hne, hmember⟩ := not_or.mp hguard
      have hlinked := h.linked.pass hP hne (not_not.mp hmember)
      refine ((h.others P).update rfl).kept hlinked fun party' hparty => ?_
      cases (Function.update_self P _ w.parties).symm.trans hparty
      exact .inl (List.cons_ne_nil _ _)

/-- The leader leaves a party that goes with the leader. -/
theorem Linked.depart_leader (h : w.Linked invited) (hP : w.parties P = some party) :
    w.departParty P party.leader true = w.disband P := by
  have hnodup := h.nodup P
  rw [hP] at hnodup
  have herase : party.memberList.erase party.leader = party.memberList :=
    List.erase_of_not_mem (List.nodup_cons.mp hnodup).1
  have hsame : w.setPartyAt P party = w := by
    rw [setPartyAt, ← hP, Function.update_eq_self]
  unfold departParty
  rw [hP]
  dsimp only
  rw [herase, Bool.true_or, if_pos rfl, closeParty_eq]
  change ((w.setPartyAt P party).setParty party.leader none).disband P = w.disband P
  rw [hsame, disband_eq (w := w.setParty party.leader none) hP, disband_eq hP]
  refine congrArg (fun pointers : Nat → Option PartyId => { w with
    party := pointers
    invitePartyList := fun x =>
      if x ∈ party.inviteList then (w.invitePartyList x).filter fun Q => Q ≠ P
      else w.invitePartyList x
    parties := Function.update w.parties P none }) (funext fun x => ?_)
  split_ifs with hx
  · rfl
  · have hne : x ≠ party.leader := fun heq => hx (heq ▸ List.mem_cons_self (a := x))
    exact Function.update_of_ne hne _ _

/-- A member leaves, and the party is disbanded when it has become empty. -/
theorem Linked.depart_member (h : w.Linked w.invitePartyList) (hP : w.parties P = some party)
    (hothers : w.OthersInhabited old P) (hin : player ∈ party.memberList) :
    (w.departParty P player false).Kept old (w.departParty P player false).invitePartyList := by
  obtain ⟨hkept, hlists⟩ := (h.leave hP hin).settle (Function.update_self ..)
    (hothers.update rfl)
  unfold departParty
  rw [hP]
  dsimp only
  rw [Bool.false_or, closeParty_eq, hlists]
  exact hkept

/-- The leader who leaves passes the leadership to the first member. -/
theorem Linked.passPartyLeadership_eq {heir : Nat} {others : List Nat} (h : w.Linked invited)
    (hP : w.parties P = some party) (hlist : party.memberList = heir :: others) :
    w.passPartyLeadership P heir = w.setPartyAt P { party with
      leader := heir, memberList := party.leader :: party.memberList.erase heir } := by
  have hin : heir ∈ party.memberList := hlist ▸ List.mem_cons_self
  have hmember : w.party heir = some P := (h.mem_players hP).mpr (List.mem_cons_of_mem _ hin)
  have hne : party.leader ≠ heir := by
    rintro rfl
    have hnodup := h.nodup P
    rw [hP] at hnodup
    exact (List.nodup_cons.mp hnodup).1 hin
  unfold PartyWorld.passPartyLeadership
  rw [hP]
  exact if_neg fun hguard => hguard.elim hne fun hnot => hnot hmember

theorem Kept.leaveParty (h : w.Kept old w.invitePartyList) :
    (w.leaveParty P player).Kept old (w.leaveParty P player).invitePartyList := by
  unfold PartyWorld.leaveParty
  cases hP : w.parties P with
  | none => exact h
  | some party =>
    dsimp only
    split_ifs with houtsider hleader
    · exact h
    · subst hleader
      cases hlist : party.memberList with
      | nil =>
        dsimp only
        rw [h.linked.depart_leader hP]
        exact h.disband
      | cons heir others =>
        dsimp only
        split_ifs
        · rw [h.linked.depart_leader hP]
          exact h.disband
        · -- the heir leads, and the leader who leaves is the first member
          have hpassed : (w.passPartyLeadership P heir).Kept old _ := h.passPartyLeadership
          rw [h.linked.passPartyLeadership_eq hP hlist] at hpassed ⊢
          exact hpassed.linked.depart_member (Function.update_self ..) (hpassed.others P)
            List.mem_cons_self
    · have hmember : w.party player = some P := by
        by_contra hnot
        exact houtsider ⟨hnot, hleader⟩
      refine h.linked.depart_member hP (h.others P) ?_
      exact (List.mem_cons.mp ((h.linked.mem_players hP).mp hmember)).resolve_left
        (Ne.symm hleader)

theorem Kept.logout (h : w.Kept old w.invitePartyList) :
    (w.logout player).Kept old (w.logout player).invitePartyList := by
  have hcleared : (w.clearPartyInvitations player).Kept old _ := h.clearPartyInvitations
  have hleft : ∀ w : PartyWorld, w.Kept old w.invitePartyList → ∀ chat,
      ({ w with chat := chat } : PartyWorld).Kept old w.invitePartyList := fun w hw chat =>
    ⟨⟨hw.linked.party_iff, hw.linked.nodup, hw.linked.invited_iff, hw.linked.invitees_nodup,
      hw.linked.invited_nodup, hw.linked.outside⟩, hw.inhabited⟩
  unfold PartyWorld.logout
  dsimp only
  cases (w.clearPartyInvitations player).party player with
  | none => exact hleft _ hcleared _
  | some P => exact hleft _ hcleared.leaveParty _

/-! ## The commands -/

theorem Kept.playerInviteToParty {invitedPlayer : Nat} {address : PartyId}
    (h : w.Kept old w.invitePartyList) (hfree : w.parties address = none) :
    (w.playerInviteToParty player invitedPlayer address).Kept old
      (w.playerInviteToParty player invitedPlayer address).invitePartyList := by
  unfold PartyWorld.playerInviteToParty
  split_ifs with hguard
  · exact h
  · obtain ⟨hne, hguard⟩ := not_or.mp hguard
    have hnone : w.party invitedPlayer = none := by
      simpa using (not_or.mp hguard).2
    cases hparty : w.party player with
    | none =>
      dsimp only
      refine Linked.invitePlayer (h.linked.newParty hfree hparty) (Function.update_self ..)
        ((h.others address).update rfl) ?_
      change Function.update w.party player (some address) invitedPlayer ≠ some address
      rw [Function.update_of_ne (Ne.symm hne), hnone]
      exact nofun
    | some P =>
      dsimp only
      split_ifs
      · refine h.invitePlayer ?_
        rw [hnone]
        exact nofun
      · exact h

/-- Nobody in a party joins another one. -/
theorem apply_playerJoinParty (w : PartyWorld) (player leader : Nat) :
    w.apply (.playerJoinParty player leader) = w ∨
      ∃ P, w.party player = none ∧ w.apply (.playerJoinParty player leader) = w.joinParty P player := by
  rw [show w.apply (.playerJoinParty player leader) = w.playerJoinParty player leader from rfl]
  unfold PartyWorld.playerJoinParty
  split_ifs with hinviting hsome
  · exact .inl rfl
  · cases w.party leader <;> exact .inl rfl
  · have hnone : w.party player = none := by simpa using hsome
    cases w.party leader with
    | none => exact .inl rfl
    | some P => exact .inr ⟨P, hnone, rfl⟩

theorem apply_playerRevokePartyInvitation (w : PartyWorld) (player invitedPlayer : Nat) :
    w.apply (.playerRevokePartyInvitation player invitedPlayer) = w ∨
      ∃ P, w.party player = some P ∧
        w.apply (.playerRevokePartyInvitation player invitedPlayer) = w.revokeInvitation P invitedPlayer := by
  rw [show w.apply (.playerRevokePartyInvitation player invitedPlayer) = w.playerRevokePartyInvitation player invitedPlayer from rfl]
  unfold PartyWorld.playerRevokePartyInvitation
  cases w.party player with
  | none => exact .inl rfl
  | some P =>
    dsimp only
    split_ifs
    · exact .inr ⟨P, rfl, rfl⟩
    · exact .inl rfl

theorem apply_playerPassPartyLeadership (w : PartyWorld) (player newLeader : Nat) :
    w.apply (.playerPassPartyLeadership player newLeader) = w ∨
      ∃ P, w.apply (.playerPassPartyLeadership player newLeader) = w.passPartyLeadership P newLeader := by
  rw [show w.apply (.playerPassPartyLeadership player newLeader) = w.playerPassPartyLeadership player newLeader from rfl]
  unfold PartyWorld.playerPassPartyLeadership
  cases w.party player with
  | none => exact .inl rfl
  | some P =>
    dsimp only
    split_ifs
    · exact .inr ⟨P, rfl⟩
    · exact .inl rfl

theorem apply_playerLeaveParty (w : PartyWorld) (player : Nat) (infight : Bool) :
    w.apply (.playerLeaveParty player infight) = w ∨
      ∃ P, infight = false ∧ w.party player = some P ∧
        w.apply (.playerLeaveParty player infight) = w.leaveParty P player := by
  rw [show w.apply (.playerLeaveParty player infight) = w.playerLeaveParty player infight from rfl]
  unfold PartyWorld.playerLeaveParty
  cases w.party player with
  | none => exact .inl rfl
  | some P =>
    cases infight with
    | true => exact .inl rfl
    | false => exact .inr ⟨P, rfl, rfl, rfl⟩

/-- The invitation is gone on both sides. -/
theorem Kept.revokeInvitation (h : w.Kept old w.invitePartyList) :
    (w.revokeInvitation P player).Kept old (w.revokeInvitation P player).invitePartyList := by
  obtain ⟨hkept, hlists⟩ :=
    @Kept.removeInvite w P player w.invitePartyList old true h fun _ => rfl
  rw [if_pos rfl] at hlists
  rw [PartyWorld.revokeInvitation, hlists]
  exact hkept

/-- Only a script creates a party with nobody besides the leader. -/
theorem Kept.apply (h : w.Kept old w.invitePartyList) {operation : Operation}
    (hallocates : w.Allocates operation) (hchecked : w.Checked operation)
    (hcreate : ∀ player P, operation ≠ .create player P) :
    (w.apply operation).Kept old (w.apply operation).invitePartyList := by
  cases operation with
  | playerInviteToParty player invitedPlayer address => exact h.playerInviteToParty hallocates
  | playerJoinParty player leader =>
    obtain hsame | ⟨P, hnone, hjoin⟩ := w.apply_playerJoinParty player leader
    · rwa [hsame]
    · rw [hjoin]
      exact h.joinParty fun _ _ _ => hnone
  | playerRevokePartyInvitation player invitedPlayer =>
    obtain hsame | ⟨P, -, hrevoke⟩ := w.apply_playerRevokePartyInvitation player invitedPlayer
    · rwa [hsame]
    · rw [hrevoke]
      exact h.revokeInvitation
  | playerPassPartyLeadership player newLeader =>
    obtain hsame | ⟨P, hpass⟩ := w.apply_playerPassPartyLeadership player newLeader
    · rwa [hsame]
    · rw [hpass]
      exact h.passPartyLeadership
  | playerLeaveParty player infight =>
    obtain hsame | ⟨P, -, -, hleave⟩ := w.apply_playerLeaveParty player infight
    · rwa [hsame]
    · rw [hleave]
      exact h.leaveParty
  | logout player => exact h.logout
  | create player address => exact absurd rfl (hcreate player address)
  | disband P => exact h.disband
  | setLeader P player => exact h.passPartyLeadership
  | addInvite P player => exact h.invitePlayer hchecked
  | removeInvite P player => exact h.revokeInvitation
  | addMember P player => exact h.joinParty hchecked
  | removeMember P player => exact h.leaveParty

/-- What one operation keeps, and which parties it may leave with nobody besides the leader. -/
theorem Linked.apply (h : w.Linked w.invitePartyList) {operation : Operation}
    (hallocates : w.Allocates operation) (hchecked : w.Checked operation) :
    (w.apply operation).Linked (w.apply operation).invitePartyList ∧
      ∀ P party, (w.apply operation).parties P = some party →
        Inhabited party ∨ w.parties P = some party ∨ ∃ player, operation = .create player P := by
  by_cases hcreate : ∃ player address, operation = .create player address
  · obtain ⟨player, address, rfl⟩ := hcreate
    unfold PartyWorld.apply
    dsimp only
    split_ifs with hsome
    · exact ⟨h, fun P party hparty => .inr (.inl hparty)⟩
    · have hnone : w.party player = none := by simpa using hsome
      refine ⟨h.newParty hallocates hnone, fun P party hparty => .inr ?_⟩
      by_cases hP : P = address
      · exact .inr ⟨player, by rw [hP]⟩
      · exact .inl ((Function.update_of_ne hP _ w.parties).symm.trans hparty)
  · have hkept : w.Kept w.parties w.invitePartyList := ⟨h, fun _ _ hparty => .inr hparty⟩
    have hnext := hkept.apply hallocates hchecked fun player P heq => hcreate ⟨player, P, heq⟩
    exact ⟨hnext.linked, fun P party hparty => (hnext.inhabited P party hparty).imp_right .inl⟩

theorem linked_of_reachableBy (h : Run.ReachableBy system Checked w) :
    w.Linked w.invitePartyList := by
  refine h.invariant (I := fun w => w.Linked w.invitePartyList) (fun w hinit => ?_)
    fun w operation w' hlinked hchecked hstep => ?_
  · obtain ⟨hparty, hinvited, hparties⟩ := hinit
    refine ⟨?_, ?_, ?_, ?_, ?_, ?_⟩ <;> simp [hparty, hinvited, hparties, players, invitees]
  · obtain ⟨hallocates, rfl⟩ := hstep
    exact (hlinked.apply hallocates hchecked).1

/-! ## Lawful parties -/

theorem Linked.lawful (h : w.Linked w.invitePartyList) : w.Lawful where
  party_iff x P := by
    rw [h.party_iff]
    cases hP : w.parties P with
    | none => simp [players]
    | some party =>
      have hnodup := h.nodup P
      rw [hP] at hnodup
      have hcount : party.memberList.count x = 1 ↔ x ∈ party.memberList :=
        ⟨fun hone => List.count_pos_iff.mp (hone ▸ Nat.one_pos),
          List.count_eq_one_of_mem (List.nodup_cons.mp hnodup).2⟩
      simp [players, hcount, eq_comm]
  leader_apart P party hP := by
    have hnodup := h.nodup P
    rw [hP] at hnodup
    exact (List.nodup_cons.mp hnodup).1
  once P party hP x := by
    have hnodup := h.nodup P
    rw [hP] at hnodup
    exact List.nodup_iff_count_le_one.mp (List.nodup_cons.mp hnodup).2 x
  invited_iff x P := by
    rw [h.invited_iff]
    cases w.parties P <;> simp [invitees]
  invited_once x P := List.nodup_iff_count_le_one.mp (h.invited_nodup x) P
  invitees_once P party hP x := by
    have hnodup := h.invitees_nodup P
    rw [hP] at hnodup
    exact List.nodup_iff_count_le_one.mp hnodup x

theorem Linked.accompanied (h : w.Linked invited) (hP : w.parties P = some party)
    (hinhabited : Inhabited party) : Accompanied party := by
  have hnodup := h.nodup P
  have houtside := h.outside P
  rw [hP] at hnodup houtside
  rcases hinhabited with hmembers | hinvitees
  · obtain ⟨x, hx⟩ := List.exists_mem_of_ne_nil _ hmembers
    exact ⟨x, fun heq => (List.nodup_cons.mp hnodup).1 (heq ▸ hx), .inl hx⟩
  · obtain ⟨x, hx⟩ := List.exists_mem_of_ne_nil _ hinvitees
    exact ⟨x, fun heq => houtside x hx (heq ▸ List.mem_cons_self), .inr hx⟩

/-- A party with nobody besides the leader is one that a script has just created, or that stays as
it was. -/
theorem parties_lawful (h : Run.ReachableBy system Checked w) :
    w.Lawful ∧ ∀ operation w', system.step w operation w' → w.Checked operation →
      ∀ P party, w'.parties P = some party →
        Accompanied party ∨ w.parties P = some party ∨ ∃ player, operation = .create player P := by
  have hlinked := linked_of_reachableBy h
  refine ⟨hlinked.lawful, fun operation w' hstep hchecked P party hparty => ?_⟩
  obtain ⟨hallocates, rfl⟩ := hstep
  obtain ⟨hnext, hinhabited⟩ := hlinked.apply hallocates hchecked
  exact (hinhabited P party hparty).imp_left (hnext.accompanied hparty)

/-- Nobody is in a party yet. -/
def noParties : PartyWorld where
  party _ := none
  invitePartyList _ := []
  parties _ := none
  profile x := ⟨x, none, false⟩
  chat := { normalChannels := [] }

variable {cond : PartyWorld → Operation → Prop}

theorem noParties_reachableBy : Run.ReachableBy system cond noParties :=
  .init ⟨fun _ => rfl, fun _ => rfl, fun _ => rfl⟩

theorem apply_reachableBy (h : Run.ReachableBy system cond w) (operation : Operation)
    (hcond : cond w operation) (hallocates : w.Allocates operation) :
    Run.ReachableBy system cond (w.apply operation) :=
  h.step hcond ⟨hallocates, rfl⟩

/-- One player has invited another one, who has joined. -/
def pair : PartyWorld := (noParties.apply (.playerInviteToParty 1 2 0)).apply (.playerJoinParty 2 1)

theorem parties_lawful_pair :
    pair.Lawful ∧ ∀ operation w', system.step pair operation w' → pair.Checked operation →
      ∀ P party, w'.parties P = some party →
        Accompanied party ∨ pair.parties P = some party ∨
          ∃ player, operation = .create player P := by
  have hinvite :=
    apply_reachableBy (@noParties_reachableBy Checked) (.playerInviteToParty 1 2 0)
      trivial rfl
  exact parties_lawful (apply_reachableBy hinvite (.playerJoinParty 2 1) trivial trivial)

/-- A script adds the leader of a party to another one, creates a party without an invitation, or
invites the leader to the own party. -/
theorem parties_unlawful :
    (¬ ∀ w, Run.Reachable system w → w.Lawful) ∧
    (¬ ∀ w, Run.ReachableBy system Checked w →
      ∀ P party, w.parties P = some party → Accompanied party) ∧
    ¬ ∀ w, Run.ReachableBy system (fun _ operation => ∀ x P, operation ≠ .create x P) w →
      ∀ P party, w.parties P = some party → Accompanied party := by
  refine ⟨fun h => ?_, fun h => ?_, fun h => ?_⟩
  · have hinvite : Run.Reachable system _ :=
      apply_reachableBy noParties_reachableBy (.playerInviteToParty 1 3 0) trivial rfl
    have hother : Run.Reachable system _ :=
      apply_reachableBy hinvite (.playerInviteToParty 3 4 1) trivial rfl
    have hadd : Run.Reachable system _ := apply_reachableBy hother (.addMember 0 3) trivial trivial
    have hparty := ((h _ hadd).party_iff 3 1).mpr ⟨⟨3, [], [4]⟩, rfl, .inl rfl⟩
    exact absurd hparty (by decide)
  · obtain ⟨x, -, hx⟩ := h _
      (apply_reachableBy noParties_reachableBy (.create 1 0) trivial rfl) 0 ⟨1, [], []⟩ rfl
    simp at hx
  · have hinvite := apply_reachableBy
      (@noParties_reachableBy fun _ operation => ∀ x P, operation ≠ .create x P)
      (.playerInviteToParty 1 2 0) nofun rfl
    have hself := apply_reachableBy hinvite (.addInvite 0 1) nofun trivial
    have hrevoke :=
      apply_reachableBy hself (.playerRevokePartyInvitation 1 2) nofun trivial
    obtain ⟨x, hne, hx⟩ := h _ hrevoke 0 ⟨1, [], [1]⟩ rfl
    simp at hx
    exact hne hx

end PartyWorld

end Eloth
