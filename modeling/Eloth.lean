import Eloth.AccessList
import Eloth.AccountStorage
import Eloth.AddItem
import Eloth.AddRoom
import Eloth.AreaCombat
import Eloth.Attire
import Eloth.AttributeBits
import Eloth.Authenticator
import Eloth.Autosend
import Eloth.Ban
import Eloth.Beds
import Eloth.Chat
import Eloth.ChatRun
import Eloth.Checksum
import Eloth.ClientMap
import Eloth.ClientMapRun
import Eloth.Combat
import Eloth.Condition
import Eloth.ConditionRoundTrip
import Eloth.ConditionStream
import Eloth.Connection
import Eloth.Container
import Eloth.ContainerIterator
import Eloth.ContainerRoom
import Eloth.ContainerRun
import Eloth.ContainerWeight
import Eloth.CreatureDeath
import Eloth.CreatureEvents
import Eloth.CreatureReferences
import Eloth.CreatureSpeed
import Eloth.Cylinder
import Eloth.CylinderEffects
import Eloth.DamageList
import Eloth.DamageRounds
import Eloth.Database
import Eloth.DatabaseTasks
import Eloth.DecayEntries
import Eloth.DecayLists
import Eloth.DecayMarks
import Eloth.DecayOnce
import Eloth.DecayRun
import Eloth.DecayTime
import Eloth.Definitions
import Eloth.Dispatcher
import Eloth.DistanceStep
import Eloth.Drunkenness
import Eloth.Equipment
import Eloth.EquipmentBooks
import Eloth.EquipmentRun
import Eloth.EventIds
import Eloth.Experience
import Eloth.ExperienceShares
import Eloth.ExplodeString
import Eloth.Frame
import Eloth.FrameReads
import Eloth.GlobalEventRun
import Eloth.GlobalEvents
import Eloth.Guild
import Eloth.HeldItems
import Eloth.Holdings
import Eloth.HouseItems
import Eloth.HouseItemsRestored
import Eloth.HouseTile
import Eloth.HouseTileRestored
import Eloth.InsertStatements
import Eloth.InstantSpells
import Eloth.Item
import Eloth.ItemAttributes
import Eloth.ItemRoundTrip
import Eloth.ItemStream
import Eloth.ItemType
import Eloth.KnownCreatures
import Eloth.Lib.Adler
import Eloth.Lib.Buffer
import Eloth.Lib.ByteReader
import Eloth.Lib.Cascade
import Eloth.Lib.Forest
import Eloth.Lib.HandOut
import Eloth.Lib.InPlace
import Eloth.Lib.Keyed
import Eloth.Lib.Ledger
import Eloth.Lib.Levels
import Eloth.Lib.Links
import Eloth.Lib.ListSet
import Eloth.Lib.OneTimePassword
import Eloth.Lib.PointSum
import Eloth.Lib.Positional
import Eloth.Lib.RefCount
import Eloth.Lib.RowForest
import Eloth.Lib.Run
import Eloth.Lib.Sha1
import Eloth.Lib.SignalledQueue
import Eloth.Lib.SkipCode
import Eloth.Lib.TaskQueue
import Eloth.Lib.TextbookXtea
import Eloth.Lib.TreeMaps
import Eloth.Lib.Trie
import Eloth.Lib.WordTree
import Eloth.Lib.Worklist
import Eloth.LuaRegistry
import Eloth.Mailbox
import Eloth.Map
import Eloth.MapCache
import Eloth.MapCacheRun
import Eloth.MapDescription
import Eloth.MapLeaves
import Eloth.MapRun
import Eloth.MatrixArea
import Eloth.Modifiers
import Eloth.Money
import Eloth.MonsterLists
import Eloth.MoveFailure
import Eloth.MoveItem
import Eloth.MoveParts
import Eloth.MoveRoom
import Eloth.NetworkMessage
import Eloth.NpcSpectators
import Eloth.Otb
import Eloth.OtbGrammar
import Eloth.OutfitStorage
import Eloth.Party
import Eloth.PartyChannel
import Eloth.PathContract
import Eloth.PathFinding
import Eloth.PathOptimal
import Eloth.PathSearch
import Eloth.PathStraight
import Eloth.Player
import Eloth.PlayerCapacity
import Eloth.PlayerItems
import Eloth.PlayerItemsRestored
import Eloth.QuadTree
import Eloth.RaidRun
import Eloth.Raids
import Eloth.RemovalNotices
import Eloth.RemoveItems
import Eloth.RemoveOfType
import Eloth.RemoveTile
import Eloth.SaleList
import Eloth.Sample
import Eloth.ScheduledTask
import Eloth.Scheduler
import Eloth.ShopWindows
import Eloth.Skeleton
import Eloth.SkillTries
import Eloth.Spawn
import Eloth.SpawnRun
import Eloth.SpectatorCache
import Eloth.Spectators
import Eloth.StackMerge
import Eloth.StackPosition
import Eloth.StoredAttributes
import Eloth.TalkActions
import Eloth.TeleportChain
import Eloth.Texts
import Eloth.Tile
import Eloth.TileFlags
import Eloth.TileFrame
import Eloth.TileInvariants
import Eloth.TileRun
import Eloth.TileSpecials
import Eloth.TileStack
import Eloth.TimerEvents
import Eloth.TradeInvariant
import Eloth.TradeNotices
import Eloth.TradeRun
import Eloth.TradeState
import Eloth.Trading
import Eloth.Transform
import Eloth.TransformToSHA1
import Eloth.TwoHanded
import Eloth.TwoHandedRun
import Eloth.VipList
import Eloth.WaitList
import Eloth.WalkEvents
import Eloth.WildcardTree
import Eloth.World
import Eloth.Xtea
import Eloth.XteaBlocks
