import Mathlib.Data.List.Nodup
import Mathlib.Logic.Function.Basic
import Eloth.Lib.Run

/-!
# Buddies

A client lists the buddies of its player with their status. It gets the whole list when it
connects, and a message each time a buddy enters or leaves the game or its ghost mode.
-/

namespace Eloth

/-- What the client lists; no status for a buddy that it does not know. -/
abbrev ShownStatus := Nat → Option Bool

/-- A player in the game. -/
structure VipPlayer where
  guid : Nat
  account : Nat
  access : Bool
  specialVip : Bool
  ghostMode : Bool := false
  VIPList : List Nat := []
  client : Option ShownStatus := none

/-- A row of the table of characters, by which a name is looked up. -/
structure CharacterRow where
  guid : Nat
  specialVip : Bool

/-- The players in the game, and the rows of the table `account_viplist`. -/
structure VipServer where
  players : List VipPlayer := []
  account_viplist : List (Nat × Nat) := []

namespace VipPlayer

variable (p : VipPlayer)

def addVIPInternal (maxVIPEntries vipGuid : Nat) : VipPlayer :=
  if maxVIPEntries ≤ p.VIPList.length ∨ vipGuid ∈ p.VIPList then p
  else { p with VIPList := p.VIPList ++ [vipGuid] }

/-- A client passes over the status of a buddy that it does not list. -/
def updateStatus (shown : ShownStatus) (guid : Nat) (status : Bool) : ShownStatus :=
  if (shown guid).isSome then Function.update shown guid (some status) else shown

def notifyStatusChange (guid : Nat) (status : Bool) : VipPlayer :=
  match p.client with
  | none => p
  | some shown =>
    if guid ∈ p.VIPList then { p with client := some (updateStatus shown guid status) } else p

end VipPlayer

namespace VipServer

variable (s : VipServer)

def getPlayerByGUID (guid : Nat) : Option VipPlayer :=
  if guid = 0 then none else s.players.find? (·.guid = guid)

/-- The status of a buddy for a player whose group has access or not. -/
def status (access : Bool) (guid : Nat) : Bool :=
  match s.getPlayerByGUID guid with
  | some vipPlayer => !vipPlayer.ghostMode || access
  | none => false

def getVIPEntries (account : Nat) : List Nat :=
  (s.account_viplist.filter (·.1 = account)).map Prod.snd

/-- The loop at the end of `sendAddCreature`. -/
def sendVIPs (p : VipPlayer) : ShownStatus :=
  (s.getVIPEntries p.account).foldl
    (fun shown guid => Function.update shown guid (some (s.status p.access guid))) fun _ => none

def modify (guid : Nat) (f : VipPlayer → VipPlayer) : VipServer :=
  { s with players := s.players.map fun p => if p.guid = guid then f p else p }

def notifyAll (guid : Nat) (status : Bool) : VipServer :=
  { s with players := s.players.map (·.notifyStatusChange guid status) }

/-- A character is loaded and placed: `addList`, then what its client gets. -/
def login (p : VipPlayer) (maxVIPEntries : Nat) : VipServer :=
  let p := (s.getVIPEntries p.account).foldl (·.addVIPInternal maxVIPEntries)
    { p with ghostMode := false, VIPList := [], client := none }
  let s := s.notifyAll p.guid true
  let s := { s with players := p :: s.players }
  s.modify p.guid fun p => { p with client := some (s.sendVIPs p) }

/-- `removeList`. -/
def logout (guid : Nat) : VipServer :=
  { s with players := s.players.filter (·.guid ≠ guid) }.notifyAll guid false

def disconnect (guid : Nat) : VipServer := s.modify guid fun p => { p with client := none }

/-- A new connection of a player who stayed in the game. -/
def connect (guid : Nat) : VipServer :=
  s.modify guid fun p => if p.client.isNone then { p with client := some (s.sendVIPs p) } else p

/-- `player:setGhostMode(enabled)`. -/
def setGhostMode (guid : Nat) (enabled : Bool) : VipServer :=
  match s.players.find? (·.guid = guid) with
  | none => s
  | some player =>
    if player.ghostMode = enabled then s
    else
      let s := s.modify guid fun p => { p with ghostMode := enabled }
      { s with players := s.players.map fun p =>
          if p.access then p else p.notifyStatusChange guid !enabled }

/-- The player keeps the buddy, with a new row in the table unless it is there. -/
def addVIP (guid vipGuid : Nat) (status : Bool) (maxVIPEntries : Nat) : VipServer :=
  match s.players.find? (·.guid = guid) with
  | none => s
  | some player =>
    if maxVIPEntries ≤ player.VIPList.length ∨ vipGuid ∈ player.VIPList then s
    else
      let s := s.modify guid fun p =>
        { p with
          VIPList := p.VIPList ++ [vipGuid]
          client := p.client.map fun shown => Function.update shown vipGuid (some status) }
      { s with account_viplist := s.account_viplist.insert (player.account, vipGuid) }

/-- The row is what the table of characters has under the name; the players in the game are found
by their name. -/
def playerRequestAddVip (guid : Nat) (row : Option CharacterRow) (maxVIPEntries : Nat) :
    VipServer :=
  match s.players.find? (·.guid = guid), row with
  | some player, some row =>
    match s.players.find? (·.guid = row.guid) with
    | none =>
      if row.specialVip && !player.specialVip then s
      else s.addVIP guid row.guid false maxVIPEntries
    | some vipPlayer =>
      if vipPlayer.specialVip && !player.specialVip then s
      else if !vipPlayer.ghostMode || player.access then
        s.addVIP guid vipPlayer.guid true maxVIPEntries
      else s.addVIP guid vipPlayer.guid false maxVIPEntries
  | _, _ => s

/-- The client takes the buddy off its list when it asks. -/
def playerRequestRemoveVip (guid vipGuid : Nat) : VipServer :=
  match s.players.find? (·.guid = guid) with
  | none => s
  | some player =>
    let s := s.modify guid fun p =>
      { p with
        VIPList := p.VIPList.filter (· ≠ vipGuid)
        client := p.client.map fun shown => Function.update shown vipGuid none }
    if vipGuid ∈ player.VIPList then
      { s with account_viplist := s.account_viplist.filter (· ≠ (player.account, vipGuid)) }
    else s

end VipServer

inductive VipOp where
  | login (p : VipPlayer) (maxVIPEntries : Nat)
  | logout (guid : Nat)
  | disconnect (guid : Nat)
  | connect (guid : Nat)
  | setGhostMode (guid : Nat) (enabled : Bool)
  | playerRequestAddVip (guid : Nat) (row : Option CharacterRow) (maxVIPEntries : Nat)
  | playerRequestRemoveVip (guid vipGuid : Nat)

namespace VipServer

def apply (s : VipServer) : VipOp → VipServer
  | .login p maxVIPEntries => s.login p maxVIPEntries
  | .logout guid => s.logout guid
  | .disconnect guid => s.disconnect guid
  | .connect guid => s.connect guid
  | .setGhostMode guid enabled => s.setGhostMode guid enabled
  | .playerRequestAddVip guid row maxVIPEntries => s.playerRequestAddVip guid row maxVIPEntries
  | .playerRequestRemoveVip guid vipGuid => s.playerRequestRemoveVip guid vipGuid

/-- A character enters the game once, and alone of its account. -/
def Valid (s : VipServer) : VipOp → Prop
  | .login p _ => p.guid ≠ 0 ∧ ∀ q ∈ s.players, q.guid ≠ p.guid ∧ q.account ≠ p.account
  | .playerRequestAddVip _ row _ => ∀ r, row = some r → r.guid ≠ 0
  | _ => True

def system : Run.System VipServer VipOp where
  init s := s.players = []
  step s op s' := s.Valid op ∧ s' = s.apply op

/-- A buddy is in the game, and the player can see it there. -/
def Online (s : VipServer) (access : Bool) (guid : Nat) : Prop :=
  ∃ q ∈ s.players, q.guid = guid ∧ (q.ghostMode = false ∨ access = true)

/-- Every buddy in the list of a player is in the table, and its client shows whether it is in the
game. -/
structure Sound (s : VipServer) : Prop where
  guids : (s.players.map VipPlayer.guid).Nodup
  accounts : (s.players.map VipPlayer.account).Nodup
  pos : ∀ p ∈ s.players, p.guid ≠ 0
  rows : ∀ p ∈ s.players, ∀ guid ∈ p.VIPList, (p.account, guid) ∈ s.account_viplist
  shown : ∀ p ∈ s.players, ∀ shown, p.client = some shown → ∀ guid ∈ p.VIPList,
    ∃ status, shown guid = some status ∧ (status = true ↔ s.Online p.access guid)

end VipServer

/-! ## Messages -/

namespace VipPlayer

variable {p : VipPlayer} {guid : Nat} {status : Bool}

theorem notifyStatusChange_eq : p.notifyStatusChange guid status =
    { p with client := p.client.map fun shown =>
        if guid ∈ p.VIPList then updateStatus shown guid status else shown } := by
  obtain ⟨guid', account, access, specialVip, ghostMode, VIPList, client⟩ := p
  cases client with
  | none => rfl
  | some shown =>
    unfold notifyStatusChange
    dsimp only [Option.map_some]
    split_ifs <;> rfl

/-- A client that lists all buddies follows the message. -/
theorem notifyStatusChange_shown {shown' : ShownStatus}
    (h : (p.notifyStatusChange guid status).client = some shown')
    (hlists : ∀ shown, p.client = some shown → ∀ g ∈ p.VIPList, (shown g).isSome = true)
    {g : Nat} (hg : g ∈ p.VIPList) :
    ∃ shown, p.client = some shown ∧ shown' g = if g = guid then some status else shown g := by
  rw [notifyStatusChange_eq] at h
  obtain ⟨shown, hclient, rfl⟩ := Option.map_eq_some_iff.mp h
  refine ⟨shown, hclient, ?_⟩
  by_cases heq : g = guid
  · subst heq
    rw [if_pos hg, if_pos rfl, updateStatus, if_pos (hlists shown hclient g hg),
      Function.update_self]
  · rw [if_neg heq]
    unfold updateStatus
    split_ifs
    · exact Function.update_of_ne heq ..
    · rfl
    · rfl

theorem addVIPInternal_subset (maxVIPEntries : Nat) (entries : List Nat) (p : VipPlayer) :
    ∀ g ∈ (entries.foldl (·.addVIPInternal maxVIPEntries) p).VIPList,
      g ∈ p.VIPList ∨ g ∈ entries := by
  induction entries generalizing p with
  | nil => exact fun g hg => .inl hg
  | cons entry entries ih =>
    intro g hg
    rcases ih _ g hg with hmem | hmem
    · simp only [addVIPInternal] at hmem
      split_ifs at hmem
      · exact .inl hmem
      · exact (List.mem_append.mp hmem).imp_right fun h =>
          List.mem_cons.mpr (.inl (List.mem_singleton.mp h))
    · exact .inr (List.mem_cons_of_mem _ hmem)

/-- Loading the buddies changes nothing else. -/
theorem addVIPInternal_fields (maxVIPEntries : Nat) (entries : List Nat) (p : VipPlayer) :
    ∃ VIPList, entries.foldl (·.addVIPInternal maxVIPEntries) p =
      { p with VIPList := VIPList } := by
  induction entries generalizing p with
  | nil => exact ⟨p.VIPList, rfl⟩
  | cons entry entries ih =>
    obtain ⟨VIPList, hrest⟩ := ih (p.addVIPInternal maxVIPEntries entry)
    refine ⟨VIPList, hrest.trans ?_⟩
    unfold addVIPInternal
    split_ifs <;> rfl

end VipPlayer

namespace VipServer

variable {s s' : VipServer} {p q : VipPlayer} {guid : Nat} {access : Bool}

/-! ## The players in the game -/

theorem find?_eq_some (hguids : (s.players.map VipPlayer.guid).Nodup) :
    s.players.find? (·.guid = guid) = some p ↔ p ∈ s.players ∧ p.guid = guid := by
  constructor
  · intro h
    exact ⟨List.mem_of_find?_eq_some h, by simpa using List.find?_some h⟩
  · rintro ⟨hp, rfl⟩
    obtain ⟨q, hq⟩ : ∃ q, s.players.find? (·.guid = p.guid) = some q :=
      Option.isSome_iff_exists.mp (List.find?_isSome.mpr ⟨p, hp, decide_eq_true rfl⟩)
    have hguid : q.guid = p.guid := by simpa using List.find?_some hq
    rw [hq, List.inj_on_of_nodup_map hguids (List.mem_of_find?_eq_some hq) hp hguid]

theorem Sound.status_iff (h : s.Sound) : s.status access guid = true ↔ s.Online access guid := by
  unfold status getPlayerByGUID
  split_ifs with hzero
  · refine iff_of_false (by simp) ?_
    rintro ⟨q, hq, hguid, -⟩
    exact h.pos q hq (hguid.trans hzero)
  · cases hfind : s.players.find? (·.guid = guid) with
    | none =>
      refine iff_of_false Bool.false_ne_true ?_
      rintro ⟨q, hq, hguid, -⟩
      exact absurd (decide_eq_true hguid) (by simpa using List.find?_eq_none.mp hfind q hq)
    | some vipPlayer =>
      obtain ⟨hmem, hguid⟩ := (find?_eq_some h.guids).mp hfind
      constructor
      · intro hstatus
        exact ⟨vipPlayer, hmem, hguid, by simpa using hstatus⟩
      · rintro ⟨q, hq, hq', hsees⟩
        obtain rfl : q = vipPlayer :=
          List.inj_on_of_nodup_map h.guids hq hmem (hq'.trans hguid.symm)
        simpa using hsees

theorem sendVIPs_eq (g : Nat) : s.sendVIPs p g =
    if g ∈ s.getVIPEntries p.account then some (s.status p.access g) else none := by
  unfold sendVIPs
  generalize s.getVIPEntries p.account = entries
  suffices hfold : ∀ shown : ShownStatus,
      entries.foldl (fun shown guid =>
        Function.update shown guid (some (s.status p.access guid))) shown g =
        if g ∈ entries then some (s.status p.access g) else shown g from hfold _
  induction entries with
  | nil => exact fun shown => (if_neg List.not_mem_nil).symm
  | cons entry entries ih =>
    intro shown
    rw [List.foldl_cons, ih]
    by_cases hg : g ∈ entries
    · rw [if_pos hg, if_pos (List.mem_cons_of_mem _ hg)]
    · rw [if_neg hg]
      by_cases heq : g = entry
      · subst heq
        rw [if_pos List.mem_cons_self, Function.update_self]
      · rw [Function.update_of_ne heq, if_neg (by simp [heq, hg])]

theorem mem_getVIPEntries {account g : Nat} :
    g ∈ s.getVIPEntries account ↔ (account, g) ∈ s.account_viplist := by
  simp [getVIPEntries]

/-- The players change in place, and keep who they are. -/
theorem Sound.map (h : s.Sound) {f : VipPlayer → VipPlayer} {rows : List (Nat × Nat)}
    (hguid : ∀ p, (f p).guid = p.guid) (haccount : ∀ p, (f p).account = p.account)
    (hrows : ∀ p ∈ s.players, ∀ g ∈ (f p).VIPList, (p.account, g) ∈ rows)
    (hshown : ∀ p ∈ s.players, ∀ shown, (f p).client = some shown → ∀ g ∈ (f p).VIPList,
      ∃ status, shown g = some status ∧ (status = true ↔
        ∃ q ∈ s.players, q.guid = g ∧ ((f q).ghostMode = false ∨ (f p).access = true))) :
    Sound ⟨s.players.map f, rows⟩ where
  guids := by
    rw [List.map_map, show VipPlayer.guid ∘ f = VipPlayer.guid from funext hguid]
    exact h.guids
  accounts := by
    rw [List.map_map, show VipPlayer.account ∘ f = VipPlayer.account from funext haccount]
    exact h.accounts
  pos := List.forall_mem_map.mpr fun p hp => by
    rw [hguid]
    exact h.pos p hp
  rows := List.forall_mem_map.mpr fun p hp g hg => by
    rw [haccount]
    exact hrows p hp g hg
  shown := List.forall_mem_map.mpr fun p hp shown hclient g hg => by
    obtain ⟨status, hstatus, honline⟩ := hshown p hp shown hclient g hg
    refine ⟨status, hstatus, honline.trans ?_⟩
    constructor
    · rintro ⟨q, hq, rfl, hsees⟩
      exact ⟨f q, List.mem_map_of_mem hq, hguid q, hsees⟩
    · rintro ⟨q', hq', hg', hsees⟩
      obtain ⟨q, hq, rfl⟩ := List.mem_map.mp hq'
      exact ⟨q, hq, (hguid q).symm.trans hg', hsees⟩

theorem Sound.eq_of_guid (h : s.Sound) (hp : p ∈ s.players) (hq : q ∈ s.players)
    (hguid : p.guid = q.guid) : p = q := List.inj_on_of_nodup_map h.guids hp hq hguid

theorem Sound.lists (h : s.Sound) (hp : p ∈ s.players) :
    ∀ shown, p.client = some shown → ∀ g ∈ p.VIPList, (shown g).isSome = true := by
  intro shown hclient g hg
  obtain ⟨status, hstatus, -⟩ := h.shown p hp shown hclient g hg
  rw [hstatus]
  rfl

/-- A change of one player who keeps group, ghost mode and buddies. -/
theorem Sound.modify (h : s.Sound) {f : VipPlayer → VipPlayer}
    (hfields : ∀ p, (f p).guid = p.guid ∧ (f p).account = p.account ∧ (f p).access = p.access ∧
      (f p).ghostMode = p.ghostMode ∧ (f p).VIPList = p.VIPList)
    (hshown : ∀ p ∈ s.players, ∀ shown, (f p).client = some shown → p.client = some shown ∨
      ∀ g ∈ p.VIPList, shown g = some (s.status p.access g)) : (s.modify guid f).Sound := by
  have hcases : ∀ p : VipPlayer, (if p.guid = guid then f p else p).guid = p.guid ∧
      (if p.guid = guid then f p else p).account = p.account ∧
      (if p.guid = guid then f p else p).access = p.access ∧
      (if p.guid = guid then f p else p).ghostMode = p.ghostMode ∧
      (if p.guid = guid then f p else p).VIPList = p.VIPList := by
    intro p
    split_ifs
    · exact hfields p
    · exact ⟨rfl, rfl, rfl, rfl, rfl⟩
  refine h.map (fun p => (hcases p).1) (fun p => (hcases p).2.1) (fun p hp g hg => ?_)
    fun p hp shown hclient g hg => ?_
  · rw [(hcases p).2.2.2.2] at hg
    exact h.rows p hp g hg
  · rw [(hcases p).2.2.2.2] at hg
    have honline : (∃ q ∈ s.players, q.guid = g ∧
        ((if q.guid = guid then f q else q).ghostMode = false ∨
          (if p.guid = guid then f p else p).access = true)) ↔ s.Online p.access g := by
      rw [(hcases p).2.2.1]
      refine exists_congr fun q => and_congr_right fun _ => and_congr_right fun _ => ?_
      rw [(hcases q).2.2.2.1]
    rw [honline]
    have hold : p.client = some shown ∨ ∀ g ∈ p.VIPList, shown g = some (s.status p.access g) := by
      split_ifs at hclient
      · exact hshown p hp shown hclient
      · exact .inl hclient
    rcases hold with hold | hnew
    · exact h.shown p hp shown hold g hg
    · exact ⟨_, hnew g hg, h.status_iff⟩

theorem Sound.sendVIPs (h : s.Sound) (hp : p ∈ s.players) :
    ∀ g ∈ p.VIPList, s.sendVIPs p g = some (s.status p.access g) := by
  intro g hg
  rw [sendVIPs_eq, if_pos (mem_getVIPEntries.mpr (h.rows p hp g hg))]

theorem Sound.disconnect (h : s.Sound) (guid : Nat) : (s.disconnect guid).Sound :=
  h.modify (fun _ => ⟨rfl, rfl, rfl, rfl, rfl⟩) fun _ _ _ hclient => by cases hclient

theorem Sound.connect (h : s.Sound) (guid : Nat) : (s.connect guid).Sound := by
  refine h.modify (fun p => ?_) fun p hp shown hclient => ?_
  · split_ifs <;> exact ⟨rfl, rfl, rfl, rfl, rfl⟩
  · split_ifs at hclient
    · obtain rfl := Option.some.inj hclient
      exact .inr (h.sendVIPs hp)
    · exact .inl hclient

/-! ## Entering and leaving -/

/-- The player as it is loaded, before its client gets anything. -/
def loaded (s : VipServer) (p : VipPlayer) (maxVIPEntries : Nat) : VipPlayer :=
  (s.getVIPEntries p.account).foldl (·.addVIPInternal maxVIPEntries)
    { p with ghostMode := false, VIPList := [], client := none }

theorem loaded_fields (s : VipServer) (p : VipPlayer) (maxVIPEntries : Nat) :
    (s.loaded p maxVIPEntries).guid = p.guid ∧ (s.loaded p maxVIPEntries).account = p.account ∧
      (s.loaded p maxVIPEntries).ghostMode = false ∧ (s.loaded p maxVIPEntries).client = none ∧
      ∀ g ∈ (s.loaded p maxVIPEntries).VIPList, (p.account, g) ∈ s.account_viplist := by
  obtain ⟨VIPList, hloaded⟩ := VipPlayer.addVIPInternal_fields maxVIPEntries
    (s.getVIPEntries p.account) { p with ghostMode := false, VIPList := [], client := none }
  have hsubset := VipPlayer.addVIPInternal_subset maxVIPEntries
    (s.getVIPEntries p.account) { p with ghostMode := false, VIPList := [], client := none }
  rw [loaded]
  rw [hloaded] at hsubset ⊢
  refine ⟨rfl, rfl, rfl, rfl, fun g hg => ?_⟩
  exact mem_getVIPEntries.mp ((hsubset g hg).resolve_left List.not_mem_nil)

/-- `addList`. -/
def addList (s : VipServer) (p : VipPlayer) : VipServer :=
  { s.notifyAll p.guid true with players := p :: (s.notifyAll p.guid true).players }

theorem Sound.addList (h : s.Sound) (hpos : p.guid ≠ 0)
    (hnew : ∀ q ∈ s.players, q.guid ≠ p.guid ∧ q.account ≠ p.account)
    (hghost : p.ghostMode = false) (hclient : p.client = none)
    (hrows : ∀ g ∈ p.VIPList, (p.account, g) ∈ s.account_viplist) : (s.addList p).Sound := by
  have hmem : ∀ {q}, q ∈ (s.notifyAll p.guid true).players →
      ∃ q₀ ∈ s.players, q = { q₀ with client := q.client } ∧
        q = q₀.notifyStatusChange p.guid true := by
    intro q hq
    obtain ⟨q₀, hq₀, rfl⟩ := List.mem_map.mp hq
    refine ⟨q₀, hq₀, ?_, rfl⟩
    rw [VipPlayer.notifyStatusChange_eq]
  have hguids : (s.notifyAll p.guid true).players.map VipPlayer.guid =
      s.players.map VipPlayer.guid := by
    rw [notifyAll, List.map_map]
    refine List.map_congr_left fun q _ => ?_
    rw [Function.comp_apply, VipPlayer.notifyStatusChange_eq]
  have haccounts : (s.notifyAll p.guid true).players.map VipPlayer.account =
      s.players.map VipPlayer.account := by
    rw [notifyAll, List.map_map]
    refine List.map_congr_left fun q _ => ?_
    rw [Function.comp_apply, VipPlayer.notifyStatusChange_eq]
  constructor
  · change (p.guid :: (s.notifyAll p.guid true).players.map VipPlayer.guid).Nodup
    rw [hguids, List.nodup_cons]
    refine ⟨fun hin => ?_, h.guids⟩
    obtain ⟨q, hq, hguid⟩ := List.mem_map.mp hin
    exact (hnew q hq).1 hguid
  · change (p.account :: (s.notifyAll p.guid true).players.map VipPlayer.account).Nodup
    rw [haccounts, List.nodup_cons]
    refine ⟨fun hin => ?_, h.accounts⟩
    obtain ⟨q, hq, haccount⟩ := List.mem_map.mp hin
    exact (hnew q hq).2 haccount
  · refine List.forall_mem_cons.mpr ⟨hpos, fun q hq => ?_⟩
    obtain ⟨q₀, hq₀, heq, -⟩ := hmem hq
    rw [heq]
    exact h.pos q₀ hq₀
  · refine List.forall_mem_cons.mpr ⟨hrows, fun q hq => ?_⟩
    obtain ⟨q₀, hq₀, heq, -⟩ := hmem hq
    rw [heq]
    exact h.rows q₀ hq₀
  · refine List.forall_mem_cons.mpr ⟨fun shown hsome => ?_, fun q hq shown hsome g hg => ?_⟩
    · rw [hclient] at hsome
      cases hsome
    · obtain ⟨q₀, hq₀, heq, hnotified⟩ := hmem hq
      have hfields : q.VIPList = q₀.VIPList ∧ q.access = q₀.access := by
        rw [heq]
        exact ⟨rfl, rfl⟩
      rw [hfields.1] at hg
      rw [hfields.2]
      rw [hnotified] at hsome
      obtain ⟨shown₀, hshown₀, hvalue⟩ :=
        VipPlayer.notifyStatusChange_shown hsome (h.lists hq₀) hg
      -- the buddy that enters is seen by everybody, the others are as before
      have honline : (s.addList p).Online q₀.access g ↔
          p.guid = g ∨ s.Online q₀.access g := by
        constructor
        · rintro ⟨r, hr, hguid, hsees⟩
          rcases List.mem_cons.mp hr with rfl | hr
          · exact .inl hguid
          · obtain ⟨r₀, hr₀, heq', -⟩ := hmem hr
            rw [heq'] at hguid hsees
            exact .inr ⟨r₀, hr₀, hguid, hsees⟩
        · rintro (hguid | ⟨r₀, hr₀, hguid, hsees⟩)
          · exact ⟨p, List.mem_cons_self, hguid, .inl hghost⟩
          · refine ⟨r₀.notifyStatusChange p.guid true,
              List.mem_cons_of_mem _ (List.mem_map_of_mem hr₀), ?_⟩
            rw [VipPlayer.notifyStatusChange_eq]
            exact ⟨hguid, hsees⟩
      rw [hvalue, honline]
      by_cases hg' : g = p.guid
      · exact ⟨true, if_pos hg', iff_of_true rfl (.inl hg'.symm)⟩
      · obtain ⟨status, hstatus, hold⟩ := h.shown q₀ hq₀ shown₀ hshown₀ g hg
        refine ⟨status, (if_neg hg').trans hstatus, hold.trans ?_⟩
        exact (or_iff_right (Ne.symm hg')).symm

theorem login_eq (hnew : ∀ q ∈ s.players, q.guid ≠ p.guid) (maxVIPEntries : Nat) :
    s.login p maxVIPEntries = (s.addList (s.loaded p maxVIPEntries)).connect p.guid := by
  obtain ⟨hguid, -, -, hclient, -⟩ := s.loaded_fields p maxVIPEntries
  unfold login connect modify
  change VipServer.mk _ _ = VipServer.mk _ _
  congr 1
  change List.map _ (s.addList (s.loaded p maxVIPEntries)).players = _
  refine List.map_congr_left fun q hq => ?_
  change (if q.guid = (s.loaded p maxVIPEntries).guid then _ else q) = _
  rw [hguid]
  have hnone : q.guid = p.guid → q.client.isNone = true := by
    intro hq'
    rcases List.mem_cons.mp hq with rfl | hq
    · rw [hclient]
      rfl
    · obtain ⟨q₀, hq₀, rfl⟩ := List.mem_map.mp hq
      rw [VipPlayer.notifyStatusChange_eq] at hq'
      exact absurd hq' (hnew q₀ hq₀)
  split_ifs with hq'
  · dsimp only
    rw [if_pos (hnone hq')]
    rfl
  · rfl

theorem Sound.login (h : s.Sound) {maxVIPEntries : Nat} (hpos : p.guid ≠ 0)
    (hnew : ∀ q ∈ s.players, q.guid ≠ p.guid ∧ q.account ≠ p.account) :
    (s.login p maxVIPEntries).Sound := by
  obtain ⟨hguid, haccount, hghost, hclient, hrows⟩ := s.loaded_fields p maxVIPEntries
  rw [login_eq (fun q hq => (hnew q hq).1)]
  refine (h.addList (hguid ▸ hpos) ?_ hghost hclient ?_).connect _
  · rw [hguid, haccount]
    exact hnew
  · rw [haccount]
    exact hrows

theorem Sound.logout (h : s.Sound) (guid : Nat) : (s.logout guid).Sound := by
  have hrest : ∀ {q}, q ∈ (s.logout guid).players → ∃ q₀ ∈ s.players, q₀.guid ≠ guid ∧
      q = { q₀ with client := q.client } ∧ q = q₀.notifyStatusChange guid false := by
    intro q hq
    obtain ⟨q₀, hq₀, rfl⟩ := List.mem_map.mp hq
    obtain ⟨hmem, hne⟩ := List.mem_filter.mp hq₀
    refine ⟨q₀, hmem, by simpa using hne, ?_, rfl⟩
    rw [VipPlayer.notifyStatusChange_eq]
  have hleft : ∀ {β : Type} {f : VipPlayer → β}, (∀ q, f (q.notifyStatusChange guid false) = f q) →
      ((s.logout guid).players.map f).Sublist (s.players.map f) := by
    intro β f hf
    have hmap : (s.logout guid).players.map f = (s.players.filter (·.guid ≠ guid)).map f := by
      rw [VipServer.logout, notifyAll, List.map_map]
      exact List.map_congr_left fun q _ => hf q
    rw [hmap]
    exact List.filter_sublist.map f
  constructor
  · refine (hleft fun q => ?_).nodup h.guids
    rw [VipPlayer.notifyStatusChange_eq]
  · refine (hleft fun q => ?_).nodup h.accounts
    rw [VipPlayer.notifyStatusChange_eq]
  · intro q hq
    obtain ⟨q₀, hq₀, -, heq, -⟩ := hrest hq
    rw [heq]
    exact h.pos q₀ hq₀
  · intro q hq
    obtain ⟨q₀, hq₀, -, heq, -⟩ := hrest hq
    rw [heq]
    exact h.rows q₀ hq₀
  · intro q hq shown hsome g hg
    obtain ⟨q₀, hq₀, -, heq, hnotified⟩ := hrest hq
    have hfields : q.VIPList = q₀.VIPList ∧ q.access = q₀.access := by
      rw [heq]
      exact ⟨rfl, rfl⟩
    rw [hfields.1] at hg
    rw [hfields.2]
    rw [hnotified] at hsome
    obtain ⟨shown₀, hshown₀, hvalue⟩ :=
      VipPlayer.notifyStatusChange_shown hsome (h.lists hq₀) hg
    have honline : (s.logout guid).Online q₀.access g ↔ g ≠ guid ∧ s.Online q₀.access g := by
      constructor
      · rintro ⟨r, hr, hguid, hsees⟩
        obtain ⟨r₀, hr₀, hne, heq', -⟩ := hrest hr
        rw [heq'] at hguid hsees
        exact ⟨hguid ▸ hne, r₀, hr₀, hguid, hsees⟩
      · rintro ⟨hne, r₀, hr₀, hguid, hsees⟩
        have hkept : r₀ ∈ s.players.filter (·.guid ≠ guid) :=
          List.mem_filter.mpr ⟨hr₀, decide_eq_true (hguid ▸ hne)⟩
        refine ⟨r₀.notifyStatusChange guid false, List.mem_map_of_mem hkept, ?_⟩
        rw [VipPlayer.notifyStatusChange_eq]
        exact ⟨hguid, hsees⟩
    rw [hvalue, honline]
    by_cases hg' : g = guid
    · exact ⟨false, if_pos hg', iff_of_false Bool.false_ne_true fun hon => hon.1 hg'⟩
    · obtain ⟨status, hstatus, hold⟩ := h.shown q₀ hq₀ shown₀ hshown₀ g hg
      exact ⟨status, (if_neg hg').trans hstatus, hold.trans (and_iff_right hg').symm⟩

/-! ## Ghost mode -/

/-- The change of the mode and the message about it, for one player. -/
def ghosted (guid : Nat) (enabled : Bool) (p : VipPlayer) : VipPlayer :=
  let p := if p.guid = guid then { p with ghostMode := enabled } else p
  if p.access then p else p.notifyStatusChange guid !enabled

theorem ghosted_fields (guid : Nat) (enabled : Bool) (p : VipPlayer) :
    (ghosted guid enabled p).guid = p.guid ∧ (ghosted guid enabled p).account = p.account ∧
      (ghosted guid enabled p).access = p.access ∧ (ghosted guid enabled p).VIPList = p.VIPList ∧
      (ghosted guid enabled p).ghostMode = if p.guid = guid then enabled else p.ghostMode := by
  unfold ghosted
  dsimp only
  rw [VipPlayer.notifyStatusChange_eq]
  split_ifs <;> exact ⟨rfl, rfl, rfl, rfl, rfl⟩

theorem ghosted_shown {enabled : Bool} {shown' : ShownStatus}
    (h : (ghosted guid enabled p).client = some shown')
    (hlists : ∀ shown, p.client = some shown → ∀ g ∈ p.VIPList, (shown g).isSome = true)
    {g : Nat} (hg : g ∈ p.VIPList) : ∃ shown, p.client = some shown ∧
      shown' g = if p.access = false ∧ g = guid then some !enabled else shown g := by
  have hmode : ∀ p' : VipPlayer,
      p' = (if p.guid = guid then { p with ghostMode := enabled } else p) →
      p'.client = p.client ∧ p'.VIPList = p.VIPList ∧ p'.access = p.access := by
    rintro p' rfl
    split_ifs <;> exact ⟨rfl, rfl, rfl⟩
  unfold ghosted at h
  generalize hp' : (if p.guid = guid then { p with ghostMode := enabled } else p) = p' at h
  obtain ⟨hclient, hlist, haccess⟩ := hmode p' hp'.symm
  dsimp only at h
  rw [haccess] at h
  cases hcase : p.access with
  | true =>
    rw [hcase, if_pos rfl, hclient] at h
    exact ⟨shown', h, (if_neg fun hfalse => absurd hfalse.1.symm Bool.false_ne_true).symm⟩
  | false =>
    rw [hcase, if_neg Bool.false_ne_true] at h
    obtain ⟨shown, hshown, hvalue⟩ := VipPlayer.notifyStatusChange_shown h
      (by rw [hclient, hlist]; exact hlists) (hlist ▸ hg)
    refine ⟨shown, hclient ▸ hshown, hvalue.trans ?_⟩
    rw [if_congr (and_iff_right rfl) rfl rfl]

theorem Sound.setGhostMode (h : s.Sound) (guid : Nat) (enabled : Bool) :
    (s.setGhostMode guid enabled).Sound := by
  unfold VipServer.setGhostMode
  split
  · exact h
  next player hfind =>
  obtain ⟨hplayer, hguid⟩ := (find?_eq_some h.guids).mp hfind
  split_ifs with hsame
  · exact h
  have hmap : (s.modify guid fun p => { p with ghostMode := enabled }).players.map
      (fun p => if p.access then p else p.notifyStatusChange guid !enabled) =
      s.players.map (ghosted guid enabled) := List.map_map
  dsimp only
  rw [hmap]
  refine h.map (fun p => (ghosted_fields guid enabled p).1)
    (fun p => (ghosted_fields guid enabled p).2.1) (fun p hp g hg => ?_)
    fun p hp shown' hsome g hg => ?_
  · rw [(ghosted_fields guid enabled p).2.2.2.1] at hg
    exact h.rows p hp g hg
  · rw [(ghosted_fields guid enabled p).2.2.2.1] at hg
    rw [(ghosted_fields guid enabled p).2.2.1]
    obtain ⟨shown, hshown, hvalue⟩ := ghosted_shown hsome (h.lists hp) hg
    obtain ⟨status, hstatus, hold⟩ := h.shown p hp shown hshown g hg
    have honline : (∃ q ∈ s.players, q.guid = g ∧
        ((ghosted guid enabled q).ghostMode = false ∨ p.access = true)) ↔
        if p.access = false ∧ g = guid then (!enabled) = true else s.Online p.access g := by
      split_ifs with hcase
      · obtain ⟨haccess, rfl⟩ := hcase
        constructor
        · rintro ⟨q, hq, hq', hsees⟩
          rw [(ghosted_fields g enabled q).2.2.2.2, if_pos hq', haccess] at hsees
          simpa using hsees
        · intro hoff
          refine ⟨player, hplayer, hguid, .inl ?_⟩
          rw [(ghosted_fields g enabled player).2.2.2.2, if_pos hguid]
          simpa using hoff
      · refine exists_congr fun q => and_congr_right fun hq => and_congr_right fun hq' => ?_
        rw [(ghosted_fields guid enabled q).2.2.2.2]
        split_ifs with hq''
        · have haccess : p.access = true := by
            by_contra hno
            exact hcase ⟨Bool.eq_false_iff.mpr hno, hq'.symm.trans hq''⟩
          exact iff_of_true (.inr haccess) (.inr haccess)
        · rfl
    rw [hvalue, honline]
    split_ifs
    · exact ⟨_, rfl, Iff.rfl⟩
    · exact ⟨status, hstatus, hold⟩

/-! ## Requests -/

theorem Sound.addVIP (h : s.Sound) {vipGuid maxVIPEntries : Nat} {status : Bool}
    (hstatus : ∀ p ∈ s.players, p.guid = guid → (status = true ↔ s.Online p.access vipGuid)) :
    (s.addVIP guid vipGuid status maxVIPEntries).Sound := by
  unfold VipServer.addVIP
  split
  · exact h
  next player hfind =>
  obtain ⟨hplayer, hguid⟩ := (find?_eq_some h.guids).mp hfind
  split_ifs
  · exact h
  have hsub : ∀ row ∈ s.account_viplist,
      row ∈ s.account_viplist.insert (player.account, vipGuid) := fun row hrow =>
    List.mem_insert_of_mem hrow
  have honline : ∀ (p : VipPlayer) (g : Nat), (∃ q ∈ s.players, q.guid = g ∧
      ((if q.guid = guid then
        { q with
          VIPList := q.VIPList ++ [vipGuid]
          client := q.client.map fun shown => Function.update shown vipGuid (some status) }
        else q).ghostMode = false ∨ p.access = true)) ↔ s.Online p.access g := by
    intro p g
    refine exists_congr fun q => and_congr_right fun _ => and_congr_right fun _ => ?_
    split_ifs <;> rfl
  refine h.map (fun p => ?_) (fun p => ?_) (fun p hp g hg => ?_) fun p hp shown' hsome g hg => ?_
  · split_ifs <;> rfl
  · split_ifs <;> rfl
  · split_ifs at hg with hp'
    · obtain rfl := h.eq_of_guid hp hplayer (hp'.trans hguid.symm)
      rcases List.mem_append.mp hg with hg | hg
      · exact hsub _ (h.rows p hp g hg)
      · rw [List.mem_singleton.mp hg]
        exact List.mem_insert_self
    · exact hsub _ (h.rows p hp g hg)
  · split_ifs at hsome hg with hp'
    · rw [if_pos hp']
      obtain ⟨shown, hshown, rfl⟩ := Option.map_eq_some_iff.mp hsome
      by_cases hnew : g = vipGuid
      · subst hnew
        exact ⟨status, Function.update_self .., (hstatus p hp hp').trans (honline p g).symm⟩
      · have hold : g ∈ p.VIPList := (List.mem_append.mp hg).resolve_right fun hlast =>
          hnew (List.mem_singleton.mp hlast)
        obtain ⟨status', hstatus', hiff⟩ := h.shown p hp shown hshown g hold
        exact ⟨status', (Function.update_of_ne hnew ..).trans hstatus',
          hiff.trans (honline p g).symm⟩
    · rw [if_neg hp']
      obtain ⟨status', hstatus', hiff⟩ := h.shown p hp shown' hsome g hg
      exact ⟨status', hstatus', hiff.trans (honline p g).symm⟩

theorem Sound.playerRequestAddVip (h : s.Sound) (guid : Nat) (row : Option CharacterRow)
    (maxVIPEntries : Nat) : (s.playerRequestAddVip guid row maxVIPEntries).Sound := by
  unfold VipServer.playerRequestAddVip
  split
  · next player row hfind =>
    obtain ⟨hplayer, hguid⟩ := (find?_eq_some h.guids).mp hfind
    have hself : ∀ p ∈ s.players, p.guid = guid → p = player := fun p hp hp' =>
      h.eq_of_guid hp hplayer (hp'.trans hguid.symm)
    split
    · next hnone =>
      split_ifs
      · exact h
      · refine h.addVIP fun p hp hp' => iff_of_false Bool.false_ne_true ?_
        rintro ⟨q, hq, hq', -⟩
        exact absurd (decide_eq_true hq') (by simpa using List.find?_eq_none.mp hnone q hq)
    · next vipPlayer hvip =>
      obtain ⟨hmem, -⟩ := (find?_eq_some h.guids).mp hvip
      split_ifs with hspecial hsees
      · exact h
      · refine h.addVIP fun p hp hp' => iff_of_true rfl ⟨vipPlayer, hmem, rfl, ?_⟩
        rw [hself p hp hp']
        simpa using hsees
      · refine h.addVIP fun p hp hp' => iff_of_false Bool.false_ne_true ?_
        rintro ⟨q, hq, hq', hon⟩
        rw [hself p hp hp', h.eq_of_guid hq hmem hq'] at hon
        exact hsees (by simpa using hon)
  · exact h

theorem Sound.playerRequestRemoveVip (h : s.Sound) (guid vipGuid : Nat) :
    (s.playerRequestRemoveVip guid vipGuid).Sound := by
  unfold VipServer.playerRequestRemoveVip
  split
  · exact h
  next player hfind =>
  obtain ⟨hplayer, hguid⟩ := (find?_eq_some h.guids).mp hfind
  -- the rows of the buddies that are kept are kept
  suffices hrows : ∀ rows : List (Nat × Nat),
      (∀ p ∈ s.players, ∀ g ∈ p.VIPList, (p.guid = guid → g ≠ vipGuid) → (p.account, g) ∈ rows) →
      Sound ⟨s.players.map (fun p => if p.guid = guid then
        { p with
          VIPList := p.VIPList.filter (· ≠ vipGuid)
          client := p.client.map fun shown => Function.update shown vipGuid none }
        else p), rows⟩ by
    dsimp only
    split_ifs
    · refine hrows _ fun p hp g hg hkept => List.mem_filter.mpr ⟨h.rows p hp g hg, ?_⟩
      refine decide_eq_true fun heq => ?_
      obtain ⟨haccount, rfl⟩ := Prod.mk.inj heq
      obtain rfl := List.inj_on_of_nodup_map h.accounts hp hplayer haccount
      exact hkept hguid rfl
    · exact hrows _ fun p hp g hg _ => h.rows p hp g hg
  intro rows hrows
  have honline : ∀ (p : VipPlayer) (g : Nat), (∃ q ∈ s.players, q.guid = g ∧
      ((if q.guid = guid then
        { q with
          VIPList := q.VIPList.filter (· ≠ vipGuid)
          client := q.client.map fun shown => Function.update shown vipGuid none }
        else q).ghostMode = false ∨ p.access = true)) ↔ s.Online p.access g := by
    intro p g
    refine exists_congr fun q => and_congr_right fun _ => and_congr_right fun _ => ?_
    split_ifs <;> rfl
  refine h.map (fun p => ?_) (fun p => ?_) (fun p hp g hg => ?_) fun p hp shown' hsome g hg => ?_
  · split_ifs <;> rfl
  · split_ifs <;> rfl
  · split_ifs at hg with hp'
    · obtain ⟨hg, hne⟩ := List.mem_filter.mp hg
      exact hrows p hp g hg fun _ => by simpa using hne
    · exact hrows p hp g hg fun hp'' => absurd hp'' hp'
  · split_ifs at hsome hg with hp'
    · rw [if_pos hp']
      obtain ⟨shown, hshown, rfl⟩ := Option.map_eq_some_iff.mp hsome
      obtain ⟨hg, hne⟩ := List.mem_filter.mp hg
      obtain ⟨status', hstatus', hiff⟩ := h.shown p hp shown hshown g hg
      exact ⟨status', (Function.update_of_ne (by simpa using hne) ..).trans hstatus',
        hiff.trans (honline p g).symm⟩
    · rw [if_neg hp']
      obtain ⟨status', hstatus', hiff⟩ := h.shown p hp shown' hsome g hg
      exact ⟨status', hstatus', hiff.trans (honline p g).symm⟩

/-! ## Runs -/

theorem Sound.apply (h : s.Sound) {op : VipOp} (hvalid : s.Valid op) : (s.apply op).Sound := by
  cases op with
  | login p maxVIPEntries => exact h.login hvalid.1 hvalid.2
  | logout guid => exact h.logout guid
  | disconnect guid => exact h.disconnect guid
  | connect guid => exact h.connect guid
  | setGhostMode guid enabled => exact h.setGhostMode guid enabled
  | playerRequestAddVip guid row maxVIPEntries =>
    exact h.playerRequestAddVip guid row maxVIPEntries
  | playerRequestRemoveVip guid vipGuid => exact h.playerRequestRemoveVip guid vipGuid

theorem sound_of_nil {s : VipServer} (h : s.players = []) : s.Sound where
  guids := by
    rw [h]
    exact List.nodup_nil
  accounts := by
    rw [h]
    exact List.nodup_nil
  pos p hp := absurd (h ▸ hp) List.not_mem_nil
  rows p hp := absurd (h ▸ hp) List.not_mem_nil
  shown p hp := absurd (h ▸ hp) List.not_mem_nil

/-- A client shows a buddy in the game exactly when it is there and the player can see it. -/
theorem buddies_shown (h : Run.Reachable system s) (hp : p ∈ s.players) {shown : ShownStatus}
    (hclient : p.client = some shown) {vipGuid : Nat} (hvip : vipGuid ∈ p.VIPList) :
    (shown vipGuid = some true ↔ s.Online p.access vipGuid) ∧
      (shown vipGuid = some false ↔ ¬s.Online p.access vipGuid) ∧
      (p.account, vipGuid) ∈ s.account_viplist := by
  have hsound : s.Sound := by
    refine Run.Reachable.invariant (I := Sound) (fun _ hinit => sound_of_nil hinit) ?_ h
    rintro s op s' hs ⟨hvalid, rfl⟩
    exact hs.apply hvalid
  obtain ⟨status, hstatus, honline⟩ := hsound.shown p hp shown hclient vipGuid hvip
  rw [hstatus, ← honline]
  exact ⟨by simp, by simp, hsound.rows p hp vipGuid hvip⟩

/-! A buddy enters the game after the player. -/

def character (guid : Nat) : VipPlayer where
  guid := guid
  account := 10 * guid
  access := false
  specialVip := false

def meeting : VipServer :=
  (({ account_viplist := [(10, 2)] } : VipServer).login (character 1) 20).login (character 2) 20

theorem reachable_login {s : VipServer} (h : Run.Reachable system s) {p : VipPlayer}
    (maxVIPEntries : Nat) (hpos : p.guid ≠ 0)
    (hnew : ∀ q ∈ s.players, q.guid ≠ p.guid ∧ q.account ≠ p.account) :
    Run.Reachable system (s.login p maxVIPEntries) :=
  Run.Reachable.step' (i := .login p maxVIPEntries) h ⟨⟨hpos, hnew⟩, rfl⟩

theorem reachable_meeting : Run.Reachable system meeting := by
  have h₀ : Run.Reachable system { account_viplist := [(10, 2)] } := .init rfl
  have h₁ := reachable_login h₀ (p := character 1) 20 (by decide) fun q hq =>
    absurd hq List.not_mem_nil
  refine reachable_login h₁ 20 (by decide) fun q hq => ?_
  obtain rfl := List.mem_singleton.mp hq
  exact ⟨by decide, by decide⟩

theorem buddies_shown_meeting : ∃ p ∈ meeting.players, p.guid = 1 ∧ p.VIPList = [2] ∧
    meeting.Online p.access 2 :=
  ⟨_, List.mem_cons_of_mem _ List.mem_cons_self, rfl, rfl,
    (buddies_shown reachable_meeting (List.mem_cons_of_mem _ List.mem_cons_self) rfl
      List.mem_cons_self).1.mp rfl⟩

end VipServer

end Eloth
