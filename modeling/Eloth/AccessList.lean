import Eloth.Texts
import Mathlib.Data.List.DropRight

/-!
# Access lists of houses

`AccessList::parseList` reads the text of an access list line by line, and fills the lists by which
`AccessList::isInList` decides who may enter.
-/

namespace Eloth

/-- `'@'`. -/
abbrev AT : UInt8 := 64

/-- `'*'`. -/
abbrev ASTERISK : UInt8 := 42

/-- `'#'`. -/
abbrev NUMBER_SIGN : UInt8 := 35

/-- `'\n'`. -/
abbrev NEWLINE : UInt8 := 10

/-- `'!'`, `'*'` and `'?'`. -/
def wildcards : List UInt8 := [33, ASTERISK, 63]

/-! ## Players and guilds -/

structure NamedRank where
  id : UInt32
  name : List UInt8
  deriving DecidableEq

structure NamedGuild where
  id : UInt32
  name : List UInt8
  ranks : List NamedRank
  deriving DecidableEq

/-- `Guild::getRankByName`. -/
def NamedGuild.getRankByName (self : NamedGuild) (name : List UInt8) : Option NamedRank :=
  self.ranks.find? fun rank => rank.name = name

/-- The guild of a player, with a rank of the guild. -/
structure GuildPlace where
  guild : NamedGuild
  guildRank : NamedRank
  mem : guildRank ∈ guild.ranks
  deriving DecidableEq

structure NamedPlayer where
  guid : UInt32
  name : List UInt8
  place : Option GuildPlace
  deriving DecidableEq

/-- The players and the guilds of the database, which compares names by `key`, without case. -/
structure Registry where
  key : List UInt8 → List UInt8
  players : List NamedPlayer
  guilds : List NamedGuild
  online : List NamedPlayer
  key_lower : ∀ name, key (asLowerCaseString name) = key name
  online_mem : ∀ player ∈ online, player ∈ players
  guid_ne : ∀ player ∈ players, player.guid ≠ 0
  guid_inj : ∀ player ∈ players, ∀ other ∈ players, player.guid = other.guid → player = other
  name_inj : ∀ player ∈ players, ∀ other ∈ players, key player.name = key other.name →
    player = other
  guild_ne : ∀ guild ∈ guilds, guild.id ≠ 0
  guild_inj : ∀ guild ∈ guilds, ∀ other ∈ guilds, guild.id = other.id → guild = other
  guildName_inj : ∀ guild ∈ guilds, ∀ other ∈ guilds, key guild.name = key other.name →
    guild = other
  rank_inj : ∀ guild ∈ guilds, ∀ other ∈ guilds, ∀ rank ∈ guild.ranks, ∀ rank' ∈ other.ranks,
    rank.id = rank'.id → guild = other ∧ rank = rank'
  place_mem : ∀ player ∈ players, ∀ place ∈ player.place, place.guild ∈ guilds

namespace Registry

variable (registry : Registry)

/-- `Game::getPlayerByName`, among the players that are online. -/
def getPlayerByName (s : List UInt8) : Option NamedPlayer :=
  if s.isEmpty then none
  else registry.online.find? fun player => asLowerCaseString player.name = asLowerCaseString s

def getGuidByName (name : List UInt8) : UInt32 :=
  match registry.players.find? fun player => registry.key player.name = registry.key name with
  | some player => player.guid
  | none => 0

def getGuildIdByName (name : List UInt8) : UInt32 :=
  match registry.guilds.find? fun guild => registry.key guild.name = registry.key name with
  | some guild => guild.id
  | none => 0

/-- `Game::getGuild`, and else `IOGuild::loadGuild`. -/
def getGuild (guildId : UInt32) : Option NamedGuild :=
  registry.guilds.find? fun guild => guild.id = guildId

def getGuildByName (name : List UInt8) : Option NamedGuild :=
  let guildId := registry.getGuildIdByName name
  if guildId = 0 then none else registry.getGuild guildId

end Registry

/-! ## The list -/

structure AccessList where
  list : List UInt8
  playerList : List UInt32
  guildRankList : List UInt32
  allowEveryone : Bool

def AccessList.isInList (self : AccessList) (player : NamedPlayer) : Bool :=
  if self.allowEveryone then true
  else if player.guid ∈ self.playerList then true
  else
    match player.place with
    | some place => place.guildRank.id ∈ self.guildRankList
    | none => false

/-- The blanks and tabs that the four calls of `parseList` take from a line. -/
def trimLine (line : List UInt8) : List UInt8 :=
  trimString (trim_right (trim_left (trimString line) TAB) TAB)

/-- The lines of the text for `std::getline`, which does not see a last line without bytes. -/
def getlines (list : List UInt8) : List (List UInt8) :=
  let lines := list.splitOn NEWLINE
  if lines.getLast? = some [] then lines.dropLast else lines

namespace Registry

variable (registry : Registry)

def addPlayer (self : AccessList) (name : List UInt8) : AccessList :=
  match registry.getPlayerByName name with
  | some player => { self with playerList := player.guid :: self.playerList }
  | none =>
    let guid := registry.getGuidByName name
    if guid ≠ 0 then { self with playerList := guid :: self.playerList } else self

def addGuild (self : AccessList) (name : List UInt8) : AccessList :=
  match registry.getGuildByName name with
  | some guild =>
    { self with guildRankList := guild.ranks.map NamedRank.id ++ self.guildRankList }
  | none => self

def addGuildRank (self : AccessList) (name rankName : List UInt8) : AccessList :=
  match registry.getGuildByName name with
  | some guild =>
    match guild.getRankByName rankName with
    | some rank => { self with guildRankList := rank.id :: self.guildRankList }
    | none => self
  | none => self

/-- A line without `'@'`. -/
def addEntry (self : AccessList) (line : List UInt8) : AccessList :=
  if line = [ASTERISK] then { self with allowEveryone := true }
  else if line.any (· ∈ wildcards) then self
  else registry.addPlayer self line

def parseLine (self : AccessList) (line : List UInt8) : AccessList :=
  let line := trimLine line
  if line.isEmpty || line.head? = some NUMBER_SIGN || line.length > 100 then self
  else
    let line := asLowerCaseString line
    match line.idxOf? AT with
    | some 0 => registry.addGuild self (line.drop 1)
    | some at_pos => registry.addGuildRank self (line.take (at_pos - 1)) (line.drop (at_pos + 1))
    | none => registry.addEntry self line

/-- The loop of `parseList`. -/
def parseLines (self : AccessList) (lineNo : UInt16) : List (List UInt8) → AccessList
  | [] => self
  | line :: lines =>
    if lineNo + 1 > 100 then self
    else parseLines (registry.parseLine self line) (lineNo + 1) lines

def parseList (self : AccessList) (list : List UInt8) : AccessList :=
  let self :=
    { self with playerList := [], guildRankList := [], allowEveryone := false, list := list }
  if list.isEmpty then self else registry.parseLines self 1 (getlines list)

end Registry

/-! ## What a line grants -/

/-- A line without the blanks and tabs at its ends. -/
def strip (line : List UInt8) : List UInt8 :=
  (line.dropWhile (· ∈ [BLANK, TAB])).rdropWhile (· ∈ [BLANK, TAB])

/-- A comment, or a line that is too long. -/
def Ignored (entry : List UInt8) : Prop := entry.head? = some NUMBER_SIGN ∨ 100 < entry.length

namespace Registry

variable (registry : Registry) (player : NamedPlayer)

/-- `@guild` with the guild of the player. -/
def GuildForm (entry : List UInt8) : Prop :=
  ∃ place ∈ player.place, ∃ name, entry = AT :: name ∧
    registry.key name = registry.key place.guild.name

/-- `rank@guild` with the rank and the guild of the player. -/
def RankForm (entry : List UInt8) : Prop :=
  ∃ place ∈ player.place, ∃ rankName name, entry = rankName ++ AT :: name ∧
    registry.key rankName = registry.key place.guildRank.name ∧
    registry.key name = registry.key place.guild.name

/-- The line lets the player in. -/
def Granted (line : List UInt8) : Prop :=
  let entry := strip line
  ¬ Ignored entry ∧
    (entry = [ASTERISK] ∨ registry.key entry = registry.key player.name ∨
      registry.GuildForm player entry ∨ registry.RankForm player entry)

/-! ## What the code makes of a line -/

/-- A byte that does not stand in a name for `parseLine`. -/
def Special (c : UInt8) : Prop := c = AT ∨ c ∈ wildcards

/-- `*`, the name of the player without special bytes, or `@guild`. -/
def Reads (entry : List UInt8) : Prop :=
  entry = [ASTERISK] ∨
    (entry ≠ [] ∧ (∀ c ∈ entry, ¬ Special c) ∧ registry.key entry = registry.key player.name) ∨
    registry.GuildForm player entry

/-- The guild of the player, one more byte, `@` and in lower case the rank of the player. -/
def ReadsRank (entry : List UInt8) : Prop :=
  ∃ place ∈ player.place, ∃ name c rankName, entry = name ++ c :: AT :: rankName ∧
    AT ∉ name ∧ c ≠ AT ∧ registry.key name = registry.key place.guild.name ∧
    place.guild.getRankByName (asLowerCaseString rankName) = some place.guildRank

/-- A line that lets the player in as it is meant. -/
def Plain (line : List UInt8) : Prop :=
  trimLine line = strip line ∧ ¬ Ignored (strip line) ∧ registry.Reads player (strip line)

/-- A line that is read as another one that lets the player in. -/
def Misread (line : List UInt8) : Prop :=
  ¬ Ignored (trimLine line) ∧
    (trimLine line ≠ strip line ∧ registry.Reads player (trimLine line) ∨
      registry.ReadsRank player (trimLine line))

/-- A line meant for the player that the code takes for something else: blanks and tabs in turn
at an end, a name with special bytes or none, or `rank@guild`. -/
def Overlooked (line : List UInt8) : Prop :=
  let entry := strip line
  ¬ Ignored entry ∧
    (trimLine line ≠ entry ∧ registry.Reads player entry ∨
      (registry.key entry = registry.key player.name ∧ (entry = [] ∨ ∃ c ∈ entry, Special c)) ∨
      registry.RankForm player entry)

variable {registry player}

theorem names_iff {entry : List UInt8} :
    (entry = [ASTERISK] ∨ registry.key entry = registry.key player.name ∨
      registry.GuildForm player entry ∨ registry.RankForm player entry) ↔
    registry.Reads player entry ∨
      (registry.key entry = registry.key player.name ∧ (entry = [] ∨ ∃ c ∈ entry, Special c)) ∨
      registry.RankForm player entry := by
  have hname : registry.key entry = registry.key player.name ↔
      (entry ≠ [] ∧ (∀ c ∈ entry, ¬ Special c) ∧
        registry.key entry = registry.key player.name) ∨
      (registry.key entry = registry.key player.name ∧
        (entry = [] ∨ ∃ c ∈ entry, Special c)) := by
    constructor
    · intro hkey
      by_cases hspecial : entry = [] ∨ ∃ c ∈ entry, Special c
      · exact .inr ⟨hkey, hspecial⟩
      · exact .inl ⟨fun h => hspecial (.inl h), fun c hc h => hspecial (.inr ⟨c, hc, h⟩), hkey⟩
    · exact fun h => h.elim (fun h => h.2.2) And.left
  unfold Reads
  constructor
  · rintro (hall | hkey | hguild | hrank)
    · exact .inl (.inl hall)
    · exact (hname.mp hkey).elim (fun h => .inl (.inr (.inl h))) fun h => .inr (.inl h)
    · exact .inl (.inr (.inr hguild))
    · exact .inr (.inr hrank)
  · rintro ((hall | hkey | hguild) | hkey | hrank)
    · exact .inl hall
    · exact .inr (.inl hkey.2.2)
    · exact .inr (.inr (.inl hguild))
    · exact .inr (.inl hkey.1)
    · exact .inr (.inr (.inr hrank))

/-- What is granted is read as it is meant, or overlooked. -/
theorem granted_iff {line : List UInt8} : registry.Granted player line ↔
    registry.Plain player line ∨ registry.Overlooked player line := by
  unfold Granted Plain Overlooked
  simp only [names_iff]
  by_cases htrim : trimLine line = strip line
  · simp only [htrim, true_and, ne_eq, not_true_eq_false, false_and, false_or, ← and_or_left]
  · simp only [htrim, false_and, ne_eq, not_false_eq_true, true_and, false_or]

/-! ## The lookups -/

variable {self : AccessList} {name rankName : List UInt8}

theorem mem_of_online {found : NamedPlayer} (h : registry.getPlayerByName name = some found) :
    found ∈ registry.players ∧ registry.key found.name = registry.key name := by
  unfold getPlayerByName at h
  split_ifs at h
  have hname := List.find?_some h
  rw [decide_eq_true_eq] at hname
  refine ⟨registry.online_mem found (List.mem_of_find?_eq_some h), ?_⟩
  rw [← registry.key_lower found.name, hname, registry.key_lower]

theorem guid_eq_iff {found : NamedPlayer} (hfound : found ∈ registry.players)
    (hplayer : player ∈ registry.players) :
    found.guid = player.guid ↔ registry.key found.name = registry.key player.name := by
  constructor
  · intro hguid
    rw [registry.guid_inj found hfound player hplayer hguid]
  · intro hkey
    rw [registry.name_inj found hfound player hplayer hkey]

theorem getGuidByName_eq (hplayer : player ∈ registry.players) :
    registry.getGuidByName name = player.guid ↔ registry.key name = registry.key player.name := by
  unfold getGuidByName
  cases hfind : registry.players.find? fun player =>
      registry.key player.name = registry.key name with
  | none =>
    have hno := List.find?_eq_none.mp hfind player hplayer
    rw [decide_eq_true_eq] at hno
    exact ⟨fun h => absurd h.symm (registry.guid_ne player hplayer), fun h => absurd h.symm hno⟩
  | some found =>
    have hname := List.find?_some hfind
    rw [decide_eq_true_eq] at hname
    rw [← hname]
    exact guid_eq_iff (List.mem_of_find?_eq_some hfind) hplayer

theorem getGuildByName_eq {guild : NamedGuild} : registry.getGuildByName name = some guild ↔
    guild ∈ registry.guilds ∧ registry.key name = registry.key guild.name := by
  unfold getGuildByName getGuildIdByName getGuild
  cases hfind : registry.guilds.find? fun guild =>
      registry.key guild.name = registry.key name with
  | none =>
    refine ⟨fun h => (nomatch h), fun ⟨hguild, hkey⟩ => ?_⟩
    have hno := List.find?_eq_none.mp hfind guild hguild
    rw [decide_eq_true_eq] at hno
    exact absurd hkey.symm hno
  | some found =>
    have hfound := List.mem_of_find?_eq_some hfind
    have hname := List.find?_some hfind
    rw [decide_eq_true_eq] at hname
    rw [if_neg (registry.guild_ne found hfound), ← hname]
    have hid : registry.guilds.find? (fun guild => guild.id = found.id) = some found := by
      cases hrow : registry.guilds.find? fun guild => guild.id = found.id with
      | none => exact absurd (by simp) (List.find?_eq_none.mp hrow found hfound)
      | some row =>
        have hsame := List.find?_some hrow
        rw [decide_eq_true_eq] at hsame
        rw [registry.guild_inj row (List.mem_of_find?_eq_some hrow) found hfound hsame]
    rw [hid, Option.some_inj]
    constructor
    · rintro rfl
      exact ⟨hfound, rfl⟩
    · rintro ⟨hguild, hkey⟩
      exact registry.guildName_inj found hfound guild hguild hkey

theorem isInList_iff : self.isInList player = true ↔ self.allowEveryone = true ∨
    player.guid ∈ self.playerList ∨
    ∃ place ∈ player.place, place.guildRank.id ∈ self.guildRankList := by
  unfold AccessList.isInList
  split_ifs with hall hguid
  · exact ⟨fun _ => .inl hall, fun _ => rfl⟩
  · exact ⟨fun _ => .inr (.inl hguid), fun _ => rfl⟩
  · rw [eq_false_of_ne_true hall]
    cases player.place with
    | none => simp [hguid]
    | some place => simp [hguid]

/-! ## What a line adds to the list -/

theorem isInList_guid {guid : UInt32} :
    { self with playerList := guid :: self.playerList }.isInList player = true ↔
      self.isInList player = true ∨ guid = player.guid := by
  simp only [isInList_iff, List.mem_cons, eq_comm (a := player.guid), or_assoc, or_comm,
    or_left_comm]

theorem isInList_ranks (ids : List UInt32) :
    { self with guildRankList := ids ++ self.guildRankList }.isInList player = true ↔
      self.isInList player = true ∨ ∃ place ∈ player.place, place.guildRank.id ∈ ids := by
  simp only [isInList_iff, List.mem_append, and_or_left, exists_or, or_comm, or_left_comm]

theorem isInList_addPlayer (hplayer : player ∈ registry.players) :
    (registry.addPlayer self name).isInList player = true ↔
      self.isInList player = true ∨ registry.key name = registry.key player.name := by
  unfold addPlayer
  cases honline : registry.getPlayerByName name with
  | some found =>
    obtain ⟨hfound, hname⟩ := mem_of_online honline
    rw [isInList_guid, guid_eq_iff hfound hplayer, hname]
  | none =>
    dsimp only
    rw [← getGuidByName_eq hplayer]
    split_ifs with hguid
    · exact isInList_guid
    · rw [not_not.mp hguid]
      have hne := registry.guid_ne player hplayer
      exact ⟨.inl, fun h => h.resolve_right fun hzero => hne hzero.symm⟩

theorem isInList_addGuild (hplayer : player ∈ registry.players) :
    (registry.addGuild self name).isInList player = true ↔ self.isInList player = true ∨
      ∃ place ∈ player.place, registry.key name = registry.key place.guild.name := by
  unfold addGuild
  cases hguild : registry.getGuildByName name with
  | none =>
    refine ⟨.inl, fun h => h.resolve_right ?_⟩
    rintro ⟨place, hplace, hkey⟩
    have hmem := registry.place_mem player hplayer place hplace
    rw [getGuildByName_eq.mpr ⟨hmem, hkey⟩] at hguild
    cases hguild
  | some guild =>
    obtain ⟨hmem, hname⟩ := getGuildByName_eq.mp hguild
    refine (isInList_ranks _).trans (or_congr_right (exists_congr fun place => and_congr_right ?_))
    intro hplace
    have hplaced := registry.place_mem player hplayer place hplace
    rw [hname]
    constructor
    · intro hid
      obtain ⟨rank, hrank, hid⟩ := List.mem_map.mp hid
      rw [(registry.rank_inj guild hmem place.guild hplaced rank hrank place.guildRank place.mem
        hid).1]
    · intro hkey
      rw [registry.guildName_inj guild hmem place.guild hplaced hkey]
      exact List.mem_map_of_mem place.mem

theorem isInList_addGuildRank (hplayer : player ∈ registry.players) :
    (registry.addGuildRank self name rankName).isInList player = true ↔
      self.isInList player = true ∨ ∃ place ∈ player.place,
        registry.key name = registry.key place.guild.name ∧
        place.guild.getRankByName rankName = some place.guildRank := by
  unfold addGuildRank
  cases hguild : registry.getGuildByName name with
  | none =>
    refine ⟨.inl, fun h => h.resolve_right ?_⟩
    rintro ⟨place, hplace, hkey, -⟩
    have hmem := registry.place_mem player hplayer place hplace
    rw [getGuildByName_eq.mpr ⟨hmem, hkey⟩] at hguild
    cases hguild
  | some guild =>
    obtain ⟨hmem, hname⟩ := getGuildByName_eq.mp hguild
    -- the place is in this guild
    have hsame : ∀ place ∈ player.place, registry.key name = registry.key place.guild.name →
        place.guild = guild := fun place hplace hkey =>
      registry.guildName_inj _ (registry.place_mem player hplayer place hplace) _ hmem
        (hkey.symm.trans hname)
    dsimp only
    cases hfind : guild.getRankByName rankName with
    | none =>
      refine ⟨.inl, fun h => h.resolve_right ?_⟩
      rintro ⟨place, hplace, hkey, hrank⟩
      rw [hsame place hplace hkey, hfind] at hrank
      cases hrank
    | some rank =>
      have hrank : rank ∈ guild.ranks := List.mem_of_find?_eq_some hfind
      refine (isInList_ranks [rank.id]).trans
        (or_congr_right (exists_congr fun place => and_congr_right fun hplace => ?_))
      have hplaced := registry.place_mem player hplayer place hplace
      rw [List.mem_singleton]
      constructor
      · intro hid
        obtain ⟨hguild', hrank'⟩ := registry.rank_inj place.guild hplaced guild hmem
          place.guildRank place.mem rank hrank hid
        rw [hguild', hrank']
        exact ⟨hname, hfind⟩
      · rintro ⟨hkey, hfound⟩
        rw [hsame place hplace hkey, hfind] at hfound
        rw [Option.some.inj hfound]

end Registry

/-! ## The forms of a line -/

section Forms

variable {entry front rest : List UInt8} {b : UInt8}

theorem mem_lower (hb : b < 65) : b ∈ asLowerCaseString entry ↔ b ∈ entry := by
  unfold asLowerCaseString
  simp only [List.mem_map, tolower_eq_iff hb, exists_eq_right]

theorem any_wildcards_lower :
    (asLowerCaseString entry).any (· ∈ wildcards) = true ↔ ∃ c ∈ entry, c ∈ wildcards := by
  have hlow : ∀ w ∈ wildcards, w < 65 := by simp [wildcards, ASTERISK]
  have hbyte : ∀ w ∈ wildcards, (w ∈ asLowerCaseString entry ↔ w ∈ entry) := fun w hw =>
    mem_lower (hlow w hw)
  simp only [List.any_eq_true, decide_eq_true_eq]
  constructor
  · rintro ⟨c, hc, hw⟩
    exact ⟨c, (hbyte c hw).mp hc, hw⟩
  · rintro ⟨c, hc, hw⟩
    exact ⟨c, (hbyte c hw).mpr hc, hw⟩

theorem lower_eq_asterisk : asLowerCaseString entry = [ASTERISK] ↔ entry = [ASTERISK] := by
  unfold asLowerCaseString
  rw [List.map_eq_singleton_iff]
  constructor
  · rintro ⟨c, rfl, hc⟩
    rw [(tolower_eq_iff (by decide)).mp hc]
  · rintro rfl
    exact ⟨ASTERISK, rfl, rfl⟩

theorem idxOf_lower : (asLowerCaseString entry).idxOf? AT = entry.idxOf? AT := by
  induction entry with
  | nil => rfl
  | cons c rest ih =>
    have hbyte : (tolower c == AT) = (c == AT) := by
      rw [Bool.eq_iff_iff, beq_iff_eq, beq_iff_eq, tolower_eq_iff (by decide)]
    unfold asLowerCaseString at *
    rw [List.map_cons, List.idxOf?_cons, List.idxOf?_cons, hbyte, ih]

theorem idxOf_append (hfront : AT ∉ front) :
    (front ++ AT :: rest).idxOf? AT = some front.length := by
  induction front with
  | nil => rfl
  | cons c front ih =>
    rw [List.mem_cons, not_or] at hfront
    rw [List.cons_append, List.idxOf?_cons, if_neg (by simpa using Ne.symm hfront.1), ih hfront.2]
    rfl

theorem exists_of_idxOf {at_pos : Nat} (h : entry.idxOf? AT = some at_pos) :
    ∃ front rest, entry = front ++ AT :: rest ∧ AT ∉ front ∧ front.length = at_pos := by
  have hmem : AT ∈ entry := by
    by_contra hno
    rw [List.idxOf?_eq_none_iff.mpr hno] at h
    cases h
  obtain ⟨front, rest, rfl, hfront⟩ := List.eq_append_cons_of_mem hmem
  refine ⟨front, rest, rfl, hfront, ?_⟩
  rw [idxOf_append hfront] at h
  exact Option.some.inj h

theorem lower_parts (rest : List UInt8) (c : UInt8) {k : Nat} (h : front.length = k) :
    (asLowerCaseString (front ++ c :: AT :: rest)).take k = asLowerCaseString front ∧
      (asLowerCaseString (front ++ c :: AT :: rest)).drop (k + 1 + 1) =
        asLowerCaseString rest := by
  have hlength : (front.map tolower).length = k := by rw [List.length_map, h]
  unfold asLowerCaseString
  rw [List.map_append]
  constructor
  · exact List.take_left' hlength
  · rw [Nat.add_assoc, ← List.drop_drop, List.drop_left' hlength]
    rfl

end Forms

namespace Registry

variable {registry : Registry} {player : NamedPlayer} {self : AccessList}
  {entry line : List UInt8}

theorem not_guildForm (h : AT ∉ entry) : ¬ registry.GuildForm player entry := by
  rintro ⟨place, hplace, name, rfl, -⟩
  exact h List.mem_cons_self

theorem not_readsRank (h : AT ∉ entry) : ¬ registry.ReadsRank player entry := by
  rintro ⟨place, hplace, name, c, rankName, rfl, -⟩
  exact h (by simp)

/-- Without `'@'` the line is a name, or it is for everyone. -/
theorem isInList_addEntry (hplayer : player ∈ registry.players) (hne : entry ≠ [])
    (hat : AT ∉ entry) :
    (registry.addEntry self (asLowerCaseString entry)).isInList player = true ↔
      self.isInList player = true ∨
        registry.Reads player entry ∨ registry.ReadsRank player entry := by
  have hreads : registry.Reads player entry ∨ registry.ReadsRank player entry ↔
      entry = [ASTERISK] ∨ (∀ c ∈ entry, c ∉ wildcards) ∧
        registry.key entry = registry.key player.name := by
    have hspecial : (∀ c ∈ entry, ¬ Special c) ↔ ∀ c ∈ entry, c ∉ wildcards := by
      refine forall₂_congr fun c hc => not_congr (or_iff_right ?_)
      rintro rfl
      exact hat hc
    unfold Reads
    rw [hspecial, or_iff_left (not_readsRank hat), or_iff_left (not_guildForm hat),
      and_iff_right hne]
  rw [hreads]
  unfold addEntry
  by_cases hall : entry = [ASTERISK]
  · rw [if_pos (lower_eq_asterisk.mpr hall)]
    exact ⟨fun _ => .inr (.inl hall), fun _ => isInList_iff.mpr (.inl rfl)⟩
  · rw [if_neg fun h => hall (lower_eq_asterisk.mp h), or_iff_right hall]
    by_cases hwild : ∃ c ∈ entry, c ∈ wildcards
    · rw [if_pos (any_wildcards_lower.mpr hwild)]
      obtain ⟨c, hc, hcard⟩ := hwild
      exact ⟨.inl, fun h => h.resolve_right fun hname => hname.1 c hc hcard⟩
    · rw [if_neg fun h => hwild (any_wildcards_lower.mp h), isInList_addPlayer hplayer,
        registry.key_lower]
      have hnone : ∀ c ∈ entry, c ∉ wildcards := fun c hc hcard => hwild ⟨c, hc, hcard⟩
      rw [and_iff_right hnone]

/-- Behind `'@'` the line is the name of a guild. -/
theorem reads_at {name : List UInt8} :
    registry.Reads player (AT :: name) ∨ registry.ReadsRank player (AT :: name) ↔
      ∃ place ∈ player.place, registry.key name = registry.key place.guild.name := by
  constructor
  · rintro ((hall | ⟨-, hplain, -⟩ | ⟨place, hplace, name', hentry, hkey⟩) | hrank)
    · cases hall
    · exact absurd (.inl rfl) (hplain AT List.mem_cons_self)
    · rw [List.cons_inj_right] at hentry
      exact ⟨place, hplace, hentry ▸ hkey⟩
    · obtain ⟨place, hplace, front, c, rankName, hentry, hfront, hc, -⟩ := hrank
      cases front with
      | nil =>
        rw [List.nil_append, List.cons.injEq] at hentry
        exact absurd hentry.1.symm hc
      | cons b front =>
        rw [List.cons_append, List.cons.injEq] at hentry
        exact absurd (hentry.1 ▸ List.mem_cons_self) hfront
  · rintro ⟨place, hplace, hkey⟩
    exact .inl (.inr (.inr ⟨place, hplace, name, rfl, hkey⟩))

/-- Where `'@'` comes later, the line is read for a guild and a rank. -/
theorem reads_behind {front rest : List UInt8} {c : UInt8} (hfront : AT ∉ front) (hc : c ≠ AT) :
    registry.Reads player (front ++ c :: AT :: rest) ∨
      registry.ReadsRank player (front ++ c :: AT :: rest) ↔
    ∃ place ∈ player.place, registry.key front = registry.key place.guild.name ∧
      place.guild.getRankByName (asLowerCaseString rest) = some place.guildRank := by
  have hmem : AT ∈ front ++ c :: AT :: rest := by simp
  constructor
  · rintro ((hall | ⟨-, hplain, -⟩ | ⟨place, hplace, name, hentry, hkey⟩) | hrank)
    · rw [hall] at hmem
      exact absurd hmem (by decide)
    · exact absurd (.inl rfl) (hplain AT hmem)
    · cases front with
      | nil =>
        rw [List.nil_append, List.cons.injEq] at hentry
        exact absurd hentry.1 hc
      | cons b front =>
        rw [List.cons_append, List.cons.injEq] at hentry
        exact absurd (hentry.1 ▸ List.mem_cons_self) hfront
    · obtain ⟨place, hplace, front', c', rest', hentry, hfront', hc', hkey, hrank⟩ := hrank
      rw [List.append_cons front, List.append_cons front'] at hentry
      have hat : AT ∉ front ++ [c] := by simp [hfront, hc.symm]
      have hat' : AT ∉ front' ++ [c'] := by simp [hfront', hc'.symm]
      have hlength : (front ++ [c]).length = (front' ++ [c']).length := by
        rw [← Option.some_inj, ← idxOf_append hat, ← idxOf_append hat', hentry]
      obtain ⟨hname, hrest⟩ := List.append_inj hentry hlength
      obtain ⟨rfl, -⟩ := List.append_inj' hname rfl
      obtain rfl := List.cons_inj_right AT |>.mp hrest
      exact ⟨place, hplace, hkey, hrank⟩
  · rintro ⟨place, hplace, hkey, hrank⟩
    exact .inr ⟨place, hplace, front, c, rest, rfl, hfront, hc, hkey, hrank⟩

theorem plain_or_misread : registry.Plain player line ∨ registry.Misread player line ↔
    ¬ Ignored (trimLine line) ∧
      (registry.Reads player (trimLine line) ∨ registry.ReadsRank player (trimLine line)) := by
  unfold Plain Misread
  by_cases htrim : trimLine line = strip line
  · simp only [htrim, true_and, ne_eq, not_true_eq_false, false_and, false_or, ← and_or_left]
  · simp only [htrim, false_and, ne_eq, not_false_eq_true, true_and, false_or]

theorem not_reads_nil : ¬ (registry.Reads player [] ∨ registry.ReadsRank player []) := by
  rintro ((hall | ⟨hne, -⟩ | hguild) | hrank)
  · cases hall
  · exact hne rfl
  · exact not_guildForm List.not_mem_nil hguild
  · exact not_readsRank List.not_mem_nil hrank

/-- A line lets the player in when it is plain or misread. -/
theorem isInList_parseLine (hplayer : player ∈ registry.players) :
    (registry.parseLine self line).isInList player = true ↔ self.isInList player = true ∨
      registry.Plain player line ∨ registry.Misread player line := by
  rw [plain_or_misread]
  unfold parseLine
  generalize trimLine line = entry
  dsimp only
  split_ifs with hskip
  · refine ⟨.inl, fun h => h.resolve_right ?_⟩
    rintro ⟨hused, hreads⟩
    simp only [Bool.or_eq_true, decide_eq_true_eq, List.isEmpty_iff] at hskip
    rcases hskip with (rfl | hcomment) | hlong
    · exact not_reads_nil hreads
    · exact hused (.inl hcomment)
    · exact hused (.inr hlong)
  · simp only [Bool.or_eq_true, decide_eq_true_eq, List.isEmpty_iff, not_or] at hskip
    have hused : ¬ Ignored entry := fun h => h.elim hskip.1.2 hskip.2
    rw [and_iff_right hused, idxOf_lower]
    cases hat : entry.idxOf? AT with
    | none => exact isInList_addEntry hplayer hskip.1.1 (List.idxOf?_eq_none_iff.mp hat)
    | some at_pos =>
      obtain ⟨front, rest, rfl, hfront, hlength⟩ := exists_of_idxOf hat
      cases at_pos with
      | zero =>
        obtain rfl := List.length_eq_zero_iff.mp hlength
        rw [List.nil_append, reads_at]
        refine (isInList_addGuild hplayer).trans ?_
        rw [show (asLowerCaseString (AT :: rest)).drop 1 = asLowerCaseString rest from rfl,
          registry.key_lower]
      | succ k =>
        obtain rfl | ⟨name, c, rfl⟩ := List.eq_nil_or_concat front
        · cases hlength
        · rw [List.concat_eq_append] at *
          rw [List.length_append, List.length_singleton, Nat.add_right_cancel_iff] at hlength
          simp only [List.mem_append, List.mem_singleton, not_or] at hfront
          obtain ⟨hname, hdrop⟩ := lower_parts rest c hlength
          rw [List.append_assoc, List.singleton_append, reads_behind hfront.1 (Ne.symm hfront.2)]
          refine (isInList_addGuildRank hplayer).trans ?_
          rw [Nat.add_sub_cancel, hname, hdrop, registry.key_lower]

theorem isInList_parseLines (hplayer : player ∈ registry.players) {lines : List (List UInt8)}
    {lineNo : UInt16} {k : Nat} (hlineNo : lineNo.toNat + k = 100) :
    (registry.parseLines self lineNo lines).isInList player = true ↔
      self.isInList player = true ∨
        ∃ line ∈ lines.take k, registry.Plain player line ∨ registry.Misread player line := by
  induction lines generalizing self lineNo k with
  | nil => simp [parseLines]
  | cons line lines ih =>
    have hlimit : lineNo + 1 > 100 ↔ 100 ≤ lineNo.toNat := by
      have hone : (1 : UInt16).toNat = 1 := rfl
      have hhundred : (100 : UInt16).toNat = 100 := rfl
      rw [gt_iff_lt, UInt16.lt_iff_toNat_lt, UInt16.toNat_add]
      omega
    unfold parseLines
    cases k with
    | zero =>
      rw [if_pos (hlimit.mpr (by omega))]
      simp
    | succ k =>
      have hnext : (lineNo + 1).toNat + k = 100 := by
        have hone : (1 : UInt16).toNat = 1 := rfl
        rw [UInt16.toNat_add]
        omega
      rw [if_neg fun h => absurd (hlimit.mp h) (by omega), ih hnext, isInList_parseLine hplayer,
        List.take_succ_cons]
      simp only [List.mem_cons, exists_eq_or_imp, or_assoc]

theorem isInList_parseList (hplayer : player ∈ registry.players) {list : List UInt8} :
    (registry.parseList self list).isInList player = true ↔
      ∃ line ∈ (getlines list).take 99,
        registry.Plain player line ∨ registry.Misread player line := by
  have hempty : ¬ { self with
      playerList := [], guildRankList := [], allowEveryone := false, list := list }.isInList
        player = true := by
    simp [isInList_iff]
  unfold parseList
  dsimp only
  split_ifs with hnil
  · have hlines : getlines list = [] := by
      rw [List.isEmpty_iff.mp hnil]
      rfl
    rw [hlines]
    exact ⟨fun h => absurd h hempty, fun ⟨_, hline, _⟩ => (nomatch hline)⟩
  · rw [isInList_parseLines hplayer (k := 99) rfl, or_iff_right hempty]

/-- The list lets in whom one of the first hundred lines grants, for a text with a plain line for
the player among the first 99, and else when a misread line is there exactly if the hundredth is
plain or a line of the hundred is overlooked. -/
theorem parseList_iff (registry : Registry) (self : AccessList) (list : List UInt8)
    (player : NamedPlayer) (hplayer : player ∈ registry.players) :
    ((registry.parseList self list).isInList player = true ↔
      ∃ line ∈ (getlines list).take 100, registry.Granted player line) ↔
    (∃ line ∈ (getlines list).take 99, registry.Plain player line) ∨
      ((∃ line ∈ (getlines list).take 99, registry.Misread player line) ↔
        (∃ line ∈ (getlines list)[99]?, registry.Plain player line) ∨
          ∃ line ∈ (getlines list).take 100, registry.Overlooked player line) := by
  have hplain : (∃ line ∈ (getlines list).take 100, registry.Plain player line) ↔
      (∃ line ∈ (getlines list).take 99, registry.Plain player line) ∨
        ∃ line ∈ (getlines list)[99]?, registry.Plain player line := by
    rw [List.take_add_one]
    simp only [List.mem_append, or_and_right, exists_or, Option.mem_toList, Option.mem_def]
  simp only [isInList_parseList hplayer, granted_iff, and_or_left, exists_or, hplain]
  by_cases hfirst : ∃ line ∈ (getlines list).take 99, registry.Plain player line
  · simp only [hfirst, true_or]
  · simp only [hfirst, false_or]

/-- `wolf`. -/
def wolfGuild : NamedGuild where
  id := 1
  name := [119, 111, 108, 102]
  ranks := [⟨3, [104, 101, 97, 100]⟩]

/-- `bob`, with the rank `head` of the guild `wolf`. -/
def bob : NamedPlayer where
  guid := 7
  name := [98, 111, 98]
  place := some ⟨wolfGuild, ⟨3, [104, 101, 97, 100]⟩, List.mem_singleton_self _⟩

def wolfRegistry : Registry where
  key := asLowerCaseString
  players := [bob]
  guilds := [wolfGuild]
  online := []
  key_lower := fun name => by
    unfold asLowerCaseString
    rw [List.map_map]
    exact List.map_congr_left fun c _ => tolower_tolower c
  online_mem := by decide
  guid_ne := by decide
  guid_inj := by decide
  name_inj := by decide
  guild_ne := by decide
  guild_inj := by decide
  guildName_inj := by decide
  rank_inj := by decide
  place_mem := by decide

/-- The text `bob`. -/
theorem parseList_iff_name :
    (wolfRegistry.parseList ⟨[], [], [], false⟩ bob.name).isInList bob = true ↔
      ∃ line ∈ (getlines bob.name).take 100, wolfRegistry.Granted bob line := by
  have hstrip : strip bob.name = [98, 111, 98] := by decide
  have hplain : ∀ c ∈ strip bob.name, ¬ Special c := by
    rw [hstrip]
    simp [Special, wildcards, AT, ASTERISK]
  exact (parseList_iff wolfRegistry ⟨[], [], [], false⟩ bob.name bob (by decide)).mpr
    (.inl ⟨bob.name, by decide, by decide, by unfold Ignored; decide,
      .inr (.inl ⟨by decide, hplain, rfl⟩)⟩)

/-- The text `head@wolf`, which is looked up as the rank `wolf` of a guild `hea`. -/
theorem bob_not_in_list :
    ¬ ∀ (registry : Registry) (self : AccessList) (list : List UInt8) (player : NamedPlayer),
      player ∈ registry.players →
        ((registry.parseList self list).isInList player = true ↔
          ∃ line ∈ (getlines list).take 100, registry.Granted player line) := by
  intro h
  let text : List UInt8 := [104, 101, 97, 100, AT, 119, 111, 108, 102]
  have hgranted : wolfRegistry.Granted bob text :=
    ⟨by unfold Ignored; decide, .inr (.inr (.inr
      ⟨_, rfl, [104, 101, 97, 100], [119, 111, 108, 102], by decide, rfl, rfl⟩))⟩
  have hin := (h wolfRegistry ⟨[], [], [], false⟩ text bob (by decide)).mpr
    ⟨text, by decide, hgranted⟩
  revert hin
  decide

end Registry

end Eloth
