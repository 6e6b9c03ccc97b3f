import Mathlib.Data.List.Basic
import Mathlib.Data.List.Count
import Mathlib.Logic.Function.Basic
import Eloth.Lib.Run

/-!
# Guilds and their members that are online

A guild object exists while a player of the guild is online. Its list of members and the guild
pointers of the players are kept by different functions.
-/

namespace Eloth

structure GuildRank where
  id : Nat
  name : String
  level : Nat
  deriving DecidableEq

structure Guild (P : Type) where
  ranks : List GuildRank
  membersOnline : List P

namespace Guild

variable {P : Type} (guild : Guild P)

def getRankById (rankId : Nat) : Option GuildRank := guild.ranks.find? fun rank => rank.id = rankId

def getRankByLevel (level : Nat) : Option GuildRank :=
  guild.ranks.find? fun rank => rank.level = level

def addRank (rank : GuildRank) : Guild P := { guild with ranks := guild.ranks ++ [rank] }

/-- The guild with the rank of a member, whose row is read when the guild does not know the id. -/
def withRank (rankId : Nat) (row : Option GuildRank) : Guild P :=
  match guild.getRankById rankId, row with
  | none, some rank => guild.addRank rank
  | _, _ => guild

theorem membersOnline_withRank (rankId : Nat) (row : Option GuildRank) :
    (guild.withRank rankId row).membersOnline = guild.membersOnline := by
  unfold withRank
  split <;> rfl

end Guild

/-- What a player object has of its guild. -/
structure GuildMember (G : Type) where
  online : Bool := false
  guild : Option G := none
  guildRank : Option GuildRank := none
  guildNick : String := ""

/-- The row of `guild_membership`, and what the database has of its guild and its rank. -/
structure Membership (G : Type) where
  guildId : G
  rankId : Nat
  nick : String
  storedRanks : Option (List GuildRank)
  rankRow : Option GuildRank

structure Guilds (G P : Type) where
  guilds : G → Option (Guild P)
  player : P → GuildMember G

namespace Guilds

variable {G P : Type} [DecidableEq G] [DecidableEq P] (w : Guilds G P)

def setPlayer (p : P) (member : GuildMember G) : Guilds G P :=
  { w with player := Function.update w.player p member }

def setGuildObject (g : G) (guild : Option (Guild P)) : Guilds G P :=
  { w with guilds := Function.update w.guilds g guild }

/-- `Guild::addMember`. -/
def addMember (g : G) (p : P) : Guilds G P :=
  match w.guilds g with
  | some guild =>
    w.setGuildObject g (some { guild with membersOnline := guild.membersOnline ++ [p] })
  | none => w

/-- `Guild::removeMember`, which deletes a guild without members online. -/
def removeMember (g : G) (p : P) : Guilds G P :=
  match w.guilds g with
  | some guild =>
    let membersOnline := guild.membersOnline.filter (· ≠ p)
    if membersOnline.isEmpty then w.setGuildObject g none
    else w.setGuildObject g (some { guild with membersOnline := membersOnline })
  | none => w

/-- `removeMember` of a guild pointer that may be null. -/
def removeFrom (guild : Option G) (p : P) : Guilds G P :=
  match guild with
  | some g => w.removeMember g p
  | none => w

def hasFirstRank (g : G) : Bool := (w.guilds g).any fun guild => (guild.getRankByLevel 1).isSome

/-- `Player::setGuild`. -/
def setGuild (p : P) (guild : Option G) : Guilds G P :=
  let member := w.player p
  if guild = member.guild then w
  else
    let cleared := w.setPlayer p
      { member with guild := none, guildRank := none, guildNick := "" }
    match guild with
    | none => cleared.removeFrom member.guild p
    | some g =>
      match (w.guilds g).bind fun guild => guild.getRankByLevel 1 with
      -- the function returns before the old guild has lost its member
      | none => cleared
      | some rank =>
        let entered := cleared.setPlayer p
          { member with guild := some g, guildRank := some rank, guildNick := "" }
        (entered.addMember g p).removeFrom member.guild p

/-- The guild of a player, as `loadPlayer` finds or creates it. -/
def loadGuild (row : Membership G) : Guilds G P :=
  match w.guilds row.guildId, row.storedRanks with
  | none, some ranks => w.setGuildObject row.guildId (some { ranks := ranks, membersOnline := [] })
  | _, _ => w

/-- The part of `loadPlayer` about the guild, for a new player object. -/
def loadPlayer (p : P) (membership : Option (Membership G)) : Guilds G P :=
  match membership with
  | none => w.setPlayer p {}
  | some row =>
    let w := w.loadGuild row
    match w.guilds row.guildId with
    | none => w.setPlayer p { guildNick := row.nick }
    | some guild =>
      let guild := guild.withRank row.rankId row.rankRow
      let rank := guild.getRankById row.rankId
      (w.setGuildObject row.guildId (some guild)).setPlayer p
        { guild := if rank.isSome then some row.guildId else none
          guildRank := rank
          guildNick := row.nick }

/-- `Player::onCreatureAppear` at the login of the player. -/
def appear (p : P) : Guilds G P :=
  let w := w.setPlayer p { w.player p with online := true }
  match (w.player p).guild with
  | some g => w.addMember g p
  | none => w

def login (p : P) (membership : Option (Membership G)) : Guilds G P :=
  (w.loadPlayer p membership).appear p

/-- `Player::onRemoveCreature` for the player itself. -/
def logout (p : P) : Guilds G P :=
  let member := w.player p
  (w.setPlayer p { member with online := false }).removeFrom member.guild p

/-! ## Runs -/

inductive Call (G P : Type) where
  | setGuild (p : P) (guild : Option G)
  | addRank (g : G) (rank : GuildRank)
  | login (p : P) (membership : Option (Membership G))
  | logout (p : P)

/-- A script has no other guilds than those that exist, and a player logs in and out in turn. -/
inductive Step : Guilds G P → Call G P → Guilds G P → Prop
  | setGuild {w : Guilds G P} {p : P} {guild : Option G}
      (hguild : ∀ g, guild = some g → (w.guilds g).isSome = true) :
      Step w (.setGuild p guild) (w.setGuild p guild)
  | addRank {w : Guilds G P} {g : G} {rank : GuildRank} {guild : Guild P}
      (hguild : w.guilds g = some guild) :
      Step w (.addRank g rank) (w.setGuildObject g (some (guild.addRank rank)))
  | login {w : Guilds G P} {p : P} {membership : Option (Membership G)}
      (hoffline : (w.player p).online = false) :
      Step w (.login p membership) (w.login p membership)
  | logout {w : Guilds G P} {p : P} (honline : (w.player p).online = true) :
      Step w (.logout p) (w.logout p)

/-- The server starts without guilds and players. -/
def system (G P : Type) [DecidableEq G] [DecidableEq P] : Run.System (Guilds G P) (Call G P) where
  init w := w = { guilds := fun _ => none, player := fun _ => {} }
  step := Step

def membersOnline (g : G) : List P := (w.guilds g).elim [] Guild.membersOnline

/-- A player is in the list of a guild once, if he is online and the guild is his, and else not. -/
def Accounted : Prop :=
  ∀ g p, (w.membersOnline g).count p =
    if (w.player p).online = true ∧ (w.player p).guild = some g then 1 else 0

/-- A player enters a guild with a first rank while online. He enters one without a first rank only
offline or from no guild. -/
def Complete : Guilds G P → Call G P → Prop
  | w, .setGuild p (some g) =>
    (w.player p).guild = some g ∨
      if w.hasFirstRank g = true then (w.player p).online = true
      else (w.player p).online = false ∨ (w.player p).guild = none
  | _, _ => True

set_option linter.unusedSectionVars false

variable {w} {g g' : G} {p q : P}

/-! ## What the functions change -/

@[simp] theorem player_setPlayer (member : GuildMember G) :
    (w.setPlayer p member).player = Function.update w.player p member := rfl

@[simp] theorem membersOnline_setPlayer (member : GuildMember G) :
    (w.setPlayer p member).membersOnline g = w.membersOnline g := rfl

@[simp] theorem player_setGuildObject (guild : Option (Guild P)) :
    (w.setGuildObject g guild).player = w.player := rfl

theorem membersOnline_setGuildObject (guild : Option (Guild P)) :
    (w.setGuildObject g guild).membersOnline g' =
      if g' = g then guild.elim [] Guild.membersOnline else w.membersOnline g' := by
  unfold membersOnline setGuildObject
  by_cases h : g' = g
  · simp [h]
  · simp [h]

@[simp] theorem player_addMember : (w.addMember g p).player = w.player := by
  unfold addMember
  split <;> rfl

@[simp] theorem player_removeMember : (w.removeMember g p).player = w.player := by
  unfold removeMember
  split
  · dsimp only
    split <;> rfl
  · rfl

theorem count_addMember (hguild : (w.guilds g).isSome = true) :
    ((w.addMember g p).membersOnline g').count q =
      (w.membersOnline g').count q + if g' = g ∧ q = p then 1 else 0 := by
  obtain ⟨guild, hguild⟩ := Option.isSome_iff_exists.mp hguild
  have hmembers : w.membersOnline g = guild.membersOnline := by rw [membersOnline, hguild]; rfl
  rw [addMember, hguild]
  simp only [membersOnline_setGuildObject]
  by_cases hg : g' = g
  · subst hg
    rw [if_pos rfl, hmembers, Option.elim_some, List.count_append, List.count_singleton]
    by_cases hq : q = p
    · simp [hq]
    · simp [hq, Ne.symm hq]
  · simp [hg]

theorem count_removeMember :
    ((w.removeMember g p).membersOnline g').count q =
      if g' = g ∧ q = p then 0 else (w.membersOnline g').count q := by
  have hfilter (l : List P) : (l.filter (· ≠ p)).count q = if q = p then 0 else l.count q := by
    by_cases hq : q = p
    · subst hq
      simp [List.count_eq_zero]
    · rw [if_neg hq, List.count_filter (by simpa using hq)]
  cases hguild : w.guilds g with
  | none =>
    have hmembers : w.membersOnline g = [] := by rw [membersOnline, hguild]; rfl
    rw [removeMember, hguild]
    by_cases hg : g' = g
    · simp [hg, hmembers]
    · simp [hg]
  | some guild =>
    have hmembers : w.membersOnline g = guild.membersOnline := by rw [membersOnline, hguild]; rfl
    have hleft : (w.removeMember g p).membersOnline g' =
        if g' = g then guild.membersOnline.filter (· ≠ p) else w.membersOnline g' := by
      rw [removeMember, hguild]
      dsimp only
      split_ifs with hempty hg hg
      · rw [membersOnline_setGuildObject, if_pos hg]
        exact (List.isEmpty_iff.mp hempty).symm
      · rw [membersOnline_setGuildObject, if_neg hg]
      · rw [membersOnline_setGuildObject, if_pos hg, Option.elim_some]
      · rw [membersOnline_setGuildObject, if_neg hg]
    rw [hleft]
    by_cases hg : g' = g
    · rw [if_pos hg, hfilter, hg, hmembers]
      simp
    · simp [hg]

/-! ## The invariant -/

/-- Leaving the old guild, whose list may still have the player. -/
theorem accounted_removeFrom {old : Option G} {was : Bool}
    (hplayer : (w.player p).guild ≠ old ∨ (w.player p).online = false)
    (hcount : ∀ g q, (w.membersOnline g).count q =
      if old = some g ∧ q = p ∧ was = true then 1
      else if (w.player q).online = true ∧ (w.player q).guild = some g then 1 else 0) :
    (w.removeFrom old p).Accounted := by
  intro g q
  cases old with
  | none =>
    have hq := hcount g q
    rw [if_neg (by simp)] at hq
    rw [removeFrom, hq]
  | some oldGuild =>
    rw [removeFrom, count_removeMember, player_removeMember, hcount g q]
    by_cases hq : q = p
    · subst hq
      by_cases hg : g = oldGuild
      · subst hg
        have hnot : ¬ ((w.player q).online = true ∧ (w.player q).guild = some g) := by
          rintro ⟨honline, hguild⟩
          exact hplayer.elim (fun h => h hguild) fun h => by simp [honline] at h
        rw [if_pos ⟨rfl, rfl⟩, if_neg hnot]
      · rw [if_neg (by simp [hg]), if_neg (by simp [Ne.symm hg])]
    · rw [if_neg (by simp [hq]), if_neg (by simp [hq])]

theorem Accounted.setGuild (h : w.Accounted) {guild : Option G}
    (hguild : ∀ g, guild = some g → (w.guilds g).isSome = true)
    (hcomplete : Complete w (.setGuild p guild)) : (w.setGuild p guild).Accounted := by
  unfold Guilds.setGuild
  by_cases hsame : guild = (w.player p).guild
  · simpa [hsame] using h
  rw [if_neg hsame]
  cases guild with
  | none =>
    refine @accounted_removeFrom _ _ _ _ _ p _ (w.player p).online (.inl ?_) fun g q => ?_
    · simpa using hsame
    · by_cases hq : q = p
      · subst hq
        simp [h g q, and_comm]
      · simp [h g q, hq]
  | some g =>
    cases hrank : (w.guilds g).bind fun guild => guild.getRankByLevel 1 with
    | none =>
      -- without a first rank the list of the old guild is left as it is
      have hrank' : w.hasFirstRank g = false := by
        rw [hasFirstRank]
        cases hg : w.guilds g with
        | none => rfl
        | some guild => simpa [hg] using hrank
      have hfree : (w.player p).online = false ∨ (w.player p).guild = none := by
        simpa [Complete, hrank', Ne.symm hsame] using hcomplete
      dsimp only
      rw [hrank]
      intro g' q
      simp only [player_setPlayer, membersOnline_setPlayer, h g' q]
      by_cases hq : q = p
      · subst hq
        rcases hfree with hfree | hfree
        · simp [hfree]
        · simp [hfree]
      · simp [hq]
    | some rank =>
      have hrank' : w.hasFirstRank g = true := by
        rw [hasFirstRank]
        cases hg : w.guilds g with
        | none => simp [hg] at hrank
        | some guild => simp_all
      have honline : (w.player p).online = true := by
        simpa [Complete, hrank', Ne.symm hsame] using hcomplete
      dsimp only
      rw [hrank]
      refine @accounted_removeFrom _ _ _ _ _ p _ true (.inl ?_) fun g' q => ?_
      · simpa using hsame
      · rw [count_addMember (by exact hguild g rfl)]
        simp only [player_addMember, player_setPlayer, membersOnline_setPlayer, h g' q]
        by_cases hq : q = p
        · subst hq
          rw [Function.update_self]
          by_cases hold : (w.player q).guild = some g'
          · have hg : g' ≠ g := by
              rintro rfl
              exact hsame hold.symm
            simp [honline, hold, hg]
          · simp [honline, hold, eq_comm]
        · simp [hq]

theorem Accounted.logout (h : w.Accounted) : (w.logout p).Accounted := by
  refine @accounted_removeFrom _ _ _ _ _ p _ (w.player p).online (.inr ?_) fun g q => ?_
  · simp
  · by_cases hq : q = p
    · subst hq
      simp [h g q, and_comm]
    · simp [h g q, hq]

theorem membersOnline_loadGuild (row : Membership G) :
    (w.loadGuild row).membersOnline g = w.membersOnline g := by
  unfold loadGuild
  split
  · next ranks hguild _ =>
    rw [membersOnline_setGuildObject]
    split_ifs with hg
    · simp [membersOnline, hg, hguild]
    · rfl
  · rfl

@[simp] theorem player_loadGuild (row : Membership G) : (w.loadGuild row).player = w.player := by
  unfold loadGuild
  split <;> rfl

/-- A player is loaded with a guild only when the object of the guild is there. -/
theorem loadPlayer_spec (membership : Option (Membership G)) :
    (∀ g, (w.loadPlayer p membership).membersOnline g = w.membersOnline g) ∧
    ∃ member : GuildMember G, member.online = false ∧
      (w.loadPlayer p membership).player = Function.update w.player p member ∧
      ∀ g, member.guild = some g → ((w.loadPlayer p membership).guilds g).isSome = true := by
  unfold loadPlayer
  cases membership with
  | none => exact ⟨fun g => rfl, {}, rfl, rfl, fun g hg => by simp at hg⟩
  | some row =>
    dsimp only
    cases hguild : (w.loadGuild row).guilds row.guildId with
    | none =>
      refine ⟨fun g => ?_, { guildNick := row.nick }, rfl, ?_, fun g hg => by simp at hg⟩
      · rw [membersOnline_setPlayer, membersOnline_loadGuild]
      · rw [player_setPlayer, player_loadGuild]
    | some guild =>
      let rank := (guild.withRank row.rankId row.rankRow).getRankById row.rankId
      refine ⟨fun g => ?_, { guild := if rank.isSome then some row.guildId else none
                             guildRank := rank
                             guildNick := row.nick }, rfl, ?_, fun g hg => ?_⟩
      · rw [membersOnline_setPlayer, membersOnline_setGuildObject, membersOnline_loadGuild]
        split_ifs with hg
        · rw [← membersOnline_loadGuild row, membersOnline, hg, hguild]
          exact guild.membersOnline_withRank _ _
        · rfl
      · rw [player_setPlayer, player_setGuildObject, player_loadGuild]
      · split_ifs at hg with hrank
        obtain rfl : row.guildId = g := by simpa using hg
        simp [setPlayer, setGuildObject]

theorem Accounted.login (h : w.Accounted) (hoffline : (w.player p).online = false)
    (membership : Option (Membership G)) : (w.login p membership).Accounted := by
  obtain ⟨hlists, member, -, hplayer, hguild⟩ := loadPlayer_spec (w := w) (p := p) membership
  have hmember : (w.loadPlayer p membership).player p = member := by
    rw [hplayer, Function.update_self]
  unfold Guilds.login appear
  dsimp only
  intro g q
  have hcount := h g q
  cases hof : member.guild with
  | none =>
    simp only [player_setPlayer, Function.update_self, hmember, hof, membersOnline_setPlayer,
      hlists, hcount]
    by_cases hq : q = p
    · subst hq
      simp [hoffline]
    · simp [hq, hplayer]
  | some own =>
    simp only [player_setPlayer, Function.update_self, hmember, hof]
    rw [count_addMember (by exact hguild own hof)]
    simp only [membersOnline_setPlayer, hlists, hcount, player_addMember, player_setPlayer]
    by_cases hq : q = p
    · subst hq
      simp [hoffline, eq_comm]
    · simp [hq, hplayer]

theorem Accounted.addRank (h : w.Accounted) {guild : Guild P} (hguild : w.guilds g = some guild)
    (rank : GuildRank) : (w.setGuildObject g (some (guild.addRank rank))).Accounted := by
  intro g' q
  rw [membersOnline_setGuildObject, player_setGuildObject, ← h g' q]
  split_ifs with hg
  · simp [hg, membersOnline, hguild, Guild.addRank]
  · rfl

theorem Accounted.step {w' : Guilds G P} {call : Call G P} (h : w.Accounted)
    (hcomplete : Complete w call) (hstep : Step w call w') : w'.Accounted := by
  cases hstep with
  | setGuild hguild => exact h.setGuild hguild hcomplete
  | addRank hguild => exact h.addRank hguild _
  | login hoffline => exact h.login hoffline _
  | logout => exact h.logout

/-- When every `setGuild` of a run is complete, the lists of members and the guild pointers agree
in every state of the run. -/
theorem mem_membersOnline_iff (h : Run.ReachableBy (system G P) Complete w) (g : G) (p : P) :
    (w.membersOnline g).Nodup ∧
    (p ∈ w.membersOnline g ↔ (w.player p).online = true ∧ (w.player p).guild = some g) := by
  have hall : w.Accounted := by
    refine h.invariant (I := Accounted) ?_ fun w call w' hw hc hs => hw.step hc hs
    rintro w rfl
    intro g p
    simp [membersOnline]
  constructor
  · rw [List.nodup_iff_count]
    intro q
    rw [hall g q]
    split_ifs <;> omega
  · rw [← List.one_le_count_iff, hall g p]
    split_ifs with hp <;> simp [hp]

def leader : GuildRank := { id := 1, name := "the Leader", level := 1 }

def member : GuildRank := { id := 5, name := "a Member", level := 3 }

/-- The membership of a player whose guild has this rank only. -/
def membershipOf (guildId : Nat) (rank : GuildRank) : Membership Nat :=
  { guildId := guildId, rankId := rank.id, nick := "", storedRanks := some [rank]
    rankRow := some rank }

def start : Guilds Nat Nat := { guilds := fun _ => none, player := fun _ => {} }

/-- Player 7 is in guild 1 and player 8 in guild 2. -/
def twoGuilds (rank : GuildRank) : Guilds Nat Nat :=
  (start.login 7 (some (membershipOf 1 leader))).login 8 (some (membershipOf 2 rank))

theorem reachable_twoGuilds (rank : GuildRank) :
    Run.ReachableBy (system Nat Nat) Complete (twoGuilds rank) := by
  have hstart : Run.ReachableBy (system Nat Nat) Complete start := .init rfl
  have hfirst : Run.ReachableBy (system Nat Nat) Complete
      (start.login 7 (some (membershipOf 1 leader))) :=
    hstart.step (i := .login 7 (some (membershipOf 1 leader))) trivial (Step.login rfl)
  exact hfirst.step (i := .login 8 (some (membershipOf 2 rank))) trivial (Step.login rfl)

theorem mem_membersOnline_twoGuilds :
    ((twoGuilds leader).setGuild 7 (some 2)).membersOnline 1 = [] ∧
    ((((twoGuilds leader).setGuild 7 (some 2)).membersOnline 2).Nodup ∧
    (7 ∈ ((twoGuilds leader).setGuild 7 (some 2)).membersOnline 2 ↔
      (((twoGuilds leader).setGuild 7 (some 2)).player 7).online = true ∧
      (((twoGuilds leader).setGuild 7 (some 2)).player 7).guild = some 2)) := by
  refine ⟨by decide, mem_membersOnline_iff ?_ 2 7⟩
  refine (reachable_twoGuilds leader).step (i := .setGuild 7 (some 2)) ?_ (.setGuild ?_)
  · exact .inr (by decide)
  · rintro g hg
    obtain rfl : 2 = g := by simpa using hg
    decide

/-- The default rank of guild 2 is missing, and player 7 stays in the list of guild 1. -/
theorem exists_mem_membersOnline_left :
    ¬ ∀ w : Guilds Nat Nat, Run.Reachable (system Nat Nat) w → ∀ g p,
      (w.membersOnline g).Nodup ∧
      (p ∈ w.membersOnline g ↔ (w.player p).online = true ∧ (w.player p).guild = some g) := by
  intro hall
  have hstep : Run.Reachable (system Nat Nat) ((twoGuilds member).setGuild 7 (some 2)) := by
    refine (reachable_twoGuilds member).reachable.step' (i := .setGuild 7 (some 2)) (.setGuild ?_)
    rintro g hg
    obtain rfl : 2 = g := by simpa using hg
    decide
  have hiff := (hall _ hstep 1 7).2
  have hmem : 7 ∈ ((twoGuilds member).setGuild 7 (some 2)).membersOnline 1 := by decide
  have hleft : (((twoGuilds member).setGuild 7 (some 2)).player 7).guild = none := by decide
  have hguild := (hiff.mp hmem).2
  rw [hleft] at hguild
  cases hguild

end Guilds

end Eloth
